import ActingCommand.EventLog
import ActingCommand.RuntimeFacts.Store

/-!
# Snapshot sets

A seal splits the image of the store into parts, and a search over the parts, newest
first, finds the newest set of which every part was appended.
-/

namespace RuntimeFacts

open Machine EventLog Option
open List hiding set

def u16Max : Nat := 2 ^ 16 - 1

/-! ## The split -/

section Split

variable (encoding : Encoding) (envelopeBytes : Nat)

/-- Records in order, greedily: a new group starts when the next record would not fit. -/
def splitGroups : List RuntimeFactRecord → List (List RuntimeFactRecord) →
    List RuntimeFactRecord → Nat → List (List RuntimeFactRecord)
  | [], groups, current, _ => if current ≠ [] ∨ groups = [] then groups ++ [current] else groups
  | record :: rest, groups, current, currentBytes =>
    let recordBytes := encoding.recordBytes record
    if current ≠ [] ∧ currentBytes + 1 + recordBytes > maxRuntimeFactSnapshotBytes then
      splitGroups rest (groups ++ [current]) [record] (envelopeBytes + recordBytes)
    else
      -- Every record after the first in a part adds one separating comma.
      splitGroups rest groups (current ++ [record])
        (currentBytes + ((if current = [] then 0 else 1) + recordBytes))

/-- The sealed store in parts of at most the bytes one event may carry; a record too large for any
part forms a part of its own. -/
def splitRuntimeFactSnapshot (sealed : RuntimeFactSnapshot) :
    Except SanitizationCode (List RuntimeFactSnapshot) :=
  -- The widest part numbers, so the real envelope is never larger than the one measured.
  let envelope := { sealed with part := u16Max, parts := u16Max, records := [] }
  let envelopeBytes := encoding.snapshotBytes envelope
  let groups := splitGroups encoding envelopeBytes sealed.records [] [] envelopeBytes
  if groups.length > u16Max then .error .runtimeFactSnapshotPayloadTooLarge
  else
    .ok ((groups.zipIdx 1).map fun entry =>
      { sealed with part := entry.2, parts := groups.length, records := entry.1 })

variable {encoding envelopeBytes}

section

variable (records : List RuntimeFactRecord) (groups : List (List RuntimeFactRecord))
  (current : List RuntimeFactRecord) (currentBytes : Nat)

lemma flatten_splitGroups :
    (splitGroups encoding envelopeBytes records groups current currentBytes).flatten =
      groups.flatten ++ current ++ records := by
  fun_induction splitGroups encoding envelopeBytes records groups current currentBytes with
  | case1 groups current _ last => simp
  | case2 groups current _ last =>
    rw [not_or, not_not] at last
    simp [last.1]
  | case3 record rest groups current _ _ full ih => simp [ih]
  | case4 record rest groups current _ _ fits ih => simp [ih]

lemma splitGroups_length :
    splitGroups encoding envelopeBytes records groups current currentBytes ≠ [] ∧
      (splitGroups encoding envelopeBytes records groups current currentBytes).length ≤
        groups.length + 1 + records.length := by
  fun_induction splitGroups encoding envelopeBytes records groups current currentBytes with
  | case1 groups current _ last => simp
  | case2 groups current _ last => exact ⟨fun none => last (Or.inr none), by omega⟩
  | case3 record rest groups current _ _ full ih =>
    simp only [length_append, length_cons, length_nil] at ih ⊢
    exact ⟨ih.1, by omega⟩
  | case4 record rest groups current _ _ fits ih =>
    rw [length_cons]
    exact ⟨ih.1, by omega⟩

end

variable {sealed : RuntimeFactSnapshot}

/-- The parts of a seal are the groups of its records, numbered from 1. -/
theorem splitRuntimeFactSnapshot_inv {parts}
    (split : splitRuntimeFactSnapshot encoding sealed = .ok parts) :
    ∃ groups envelopeBytes,
      envelopeBytes = encoding.snapshotBytes
        { sealed with part := u16Max, parts := u16Max, records := [] } ∧
      groups = splitGroups encoding envelopeBytes sealed.records [] [] envelopeBytes ∧
      groups.length ≤ u16Max ∧
      parts = (groups.zipIdx 1).map fun entry =>
        { sealed with part := entry.2, parts := groups.length, records := entry.1 } := by
  unfold splitRuntimeFactSnapshot at split
  simp only at split
  split at split
  · cases split
  · rename_i within
    exact ⟨_, _, rfl, rfl, Nat.le_of_not_lt within, (Except.ok.inj split).symm⟩

/-- The parts of a seal: numbered from 1, alike but for their records, which together are the
sealed ones. -/
theorem splitRuntimeFactSnapshot_ok {parts}
    (split : splitRuntimeFactSnapshot encoding sealed = .ok parts) :
    parts ≠ [] ∧ parts.flatMap (·.records) = sealed.records ∧
      ∀ (index : Nat) (part : RuntimeFactSnapshot), parts[index]? = some part →
        part = { sealed with
          part := index + 1, parts := parts.length, records := part.records } := by
  obtain ⟨groups, envelopeBytes, -, groups_eq, -, rfl⟩ := splitRuntimeFactSnapshot_inv split
  have whole : groups.flatten = sealed.records := by
    rw [groups_eq, flatten_splitGroups]
    rfl
  have some : groups ≠ [] := groups_eq ▸ (splitGroups_length _ _ _ _).1
  refine ⟨?_, ?_, fun index part found => ?_⟩
  · rw [ne_eq, map_eq_nil_iff, zipIdx_eq_nil_iff]
    exact some
  · rw [flatMap_map, ← whole]
    change (groups.zipIdx 1).flatMap (fun entry => entry.1) = groups.flatten
    rw [flatMap_def, zipIdx_map_fst]
  rw [getElem?_map, getElem?_zipIdx, Option.map_map, map_eq_some_iff] at found
  obtain ⟨records, -, rfl⟩ := found
  simp [Nat.add_comm]

/-- The bytes of a part with these records, the envelope's included: every record after the first
adds a comma. -/
def groupBytes (encoding : Encoding) (envelopeBytes : Nat) (group : List RuntimeFactRecord) : Nat :=
  envelopeBytes + (group.map encoding.recordBytes).sum + (group.length - 1)

/-- A group is full for the first record of the next one. -/
def FullFor (encoding : Encoding) (envelopeBytes : Nat) (group next : List RuntimeFactRecord) :
    Prop :=
  ∃ record rest, next = record :: rest ∧
    maxRuntimeFactSnapshotBytes < groupBytes encoding envelopeBytes (group ++ [record])

/-- The groups of the loop: within the bound where there is a choice, and none starts early. -/
structure Greedy (encoding : Encoding) (envelopeBytes : Nat)
    (groups : List (List RuntimeFactRecord)) : Prop where
  fits : ∀ group ∈ groups, 1 < group.length →
    groupBytes encoding envelopeBytes group ≤ maxRuntimeFactSnapshotBytes
  full : groups.IsChain (FullFor encoding envelopeBytes)

lemma groupBytes_concat {group} (some : group ≠ []) (record : RuntimeFactRecord) :
    groupBytes encoding envelopeBytes (group ++ [record]) =
      groupBytes encoding envelopeBytes group + 1 + encoding.recordBytes record := by
  have positive := length_pos_of_ne_nil some
  simp only [groupBytes, map_append, sum_append, map_singleton, sum_singleton,
    length_append, length_singleton]
  omega

section

variable (groups : List (List RuntimeFactRecord)) (current : List RuntimeFactRecord)
  (record : RuntimeFactRecord)

lemma Greedy.start (greedy : Greedy encoding envelopeBytes (groups ++ [current]))
    (full : FullFor encoding envelopeBytes current [record]) :
    Greedy encoding envelopeBytes (groups ++ [current] ++ [[record]]) where
  fits group member long := by
    rcases mem_append.mp member with old | new
    · exact greedy.fits group old long
    · rw [mem_singleton.mp new] at long
      exact absurd long (lt_irrefl 1)
  full := by
    refine isChain_append.mpr ⟨greedy.full, isChain_singleton _, ?_⟩
    intro last isLast next isNext
    obtain rfl : current = last := by simpa using isLast
    obtain rfl : [record] = next := by simpa using isNext
    exact full

lemma Greedy.extend (greedy : Greedy encoding envelopeBytes (groups ++ [current]))
    (fits : current ≠ [] → groupBytes encoding envelopeBytes (current ++ [record]) ≤
      maxRuntimeFactSnapshotBytes) :
    Greedy encoding envelopeBytes (groups ++ [current ++ [record]]) where
  fits group member long := by
    rcases mem_append.mp member with old | new
    · exact greedy.fits group (mem_append_left _ old) long
    rw [mem_singleton.mp new] at long ⊢
    refine fits fun none => ?_
    rw [none] at long
    exact absurd long (lt_irrefl 1)
  full := by
    obtain ⟨before, -, between⟩ := isChain_append.mp greedy.full
    refine isChain_append.mpr ⟨before, isChain_singleton _, ?_⟩
    intro last isLast next isNext
    obtain rfl : current ++ [record] = next := by simpa using isNext
    obtain ⟨first, rest, isCurrent, full⟩ := between last isLast current rfl
    exact ⟨first, rest ++ [record], by rw [isCurrent, cons_append], full⟩

theorem splitGroups_greedy (records : List RuntimeFactRecord) (currentBytes : Nat)
    (isBytes : currentBytes = groupBytes encoding envelopeBytes current)
    (some : groups ≠ [] → current ≠ [])
    (greedy : Greedy encoding envelopeBytes (groups ++ [current])) :
    Greedy encoding envelopeBytes
      (splitGroups encoding envelopeBytes records groups current currentBytes) := by
  fun_induction splitGroups encoding envelopeBytes records groups current currentBytes with
  | case1 groups current _ last => exact greedy
  | case2 groups current _ last =>
    rw [not_or, not_not] at last
    exact absurd last.1 (some last.2)
  | case3 record rest groups current currentBytes recordBytes full ih =>
    refine ih ?_ (fun _ => cons_ne_nil _ _) (greedy.start groups current record ?_)
    · simp [groupBytes, recordBytes]
    refine ⟨record, [], rfl, ?_⟩
    rw [groupBytes_concat full.1, ← isBytes]
    exact full.2
  | case4 record rest groups current currentBytes recordBytes fits ih =>
    have bytes : current ≠ [] → currentBytes + 1 + recordBytes =
        groupBytes encoding envelopeBytes (current ++ [record]) := by
      intro holds
      rw [groupBytes_concat holds, ← isBytes]
    refine ih ?_ (fun _ => append_ne_nil_of_right_ne_nil _ (cons_ne_nil _ _))
      (greedy.extend groups current record ?_)
    · by_cases empty : current = []
      · rw [isBytes, empty]
        simp [groupBytes, recordBytes]
      · rw [if_neg empty, ← bytes empty]
        omega
    · intro holds
      rw [← bytes holds]
      exact not_lt.mp fun more => fits ⟨holds, more⟩

end

/-- The compact JSON of a snapshot: the lengths of the records add up with their commas, and the
part numbers make the envelope no shorter as they grow. -/
structure Encoding.Compact (encoding : Encoding) : Prop where
  adds : ∀ snapshot : RuntimeFactSnapshot, encoding.snapshotBytes snapshot =
    groupBytes encoding (encoding.snapshotBytes { snapshot with records := [] }) snapshot.records
  monotone : ∀ (snapshot : RuntimeFactSnapshot) (part parts : Nat), snapshot.part ≤ part →
    snapshot.parts ≤ parts → encoding.snapshotBytes { snapshot with records := [] } ≤
      encoding.snapshotBytes { snapshot with part := part, parts := parts, records := [] }

/-- The envelope the loop measures with: the widest part numbers. -/
def widest (snapshot : RuntimeFactSnapshot) : RuntimeFactSnapshot :=
  { snapshot with part := u16Max, parts := u16Max }

/-- What a seal measures of its groups, said of the parts themselves. -/
theorem splitRuntimeFactSnapshot_groups {parts}
    (split : splitRuntimeFactSnapshot encoding sealed = .ok parts) :
    parts.length ≤ u16Max ∧
      Greedy encoding (encoding.snapshotBytes (widest { sealed with records := [] }))
        (parts.map (·.records)) := by
  obtain ⟨groups, envelopeBytes, rfl, groups_eq, within, rfl⟩ := splitRuntimeFactSnapshot_inv split
  have greedy : Greedy encoding (encoding.snapshotBytes (widest { sealed with records := [] }))
      groups := by
    rw [groups_eq]
    refine splitGroups_greedy _ _ _ _ ?_ (fun holds => absurd rfl holds) ⟨?_, ?_⟩
    · simp [groupBytes, widest]
    · intro group member long
      rw [nil_append, mem_singleton] at member
      rw [member] at long
      exact absurd long (Nat.not_lt_zero _)
    · exact isChain_singleton _
  refine ⟨?_, ?_⟩
  · rw [length_map, length_zipIdx]
    exact within
  rw [List.map_map]
  change Greedy encoding _ ((groups.zipIdx 1).map (fun entry => entry.1))
  rw [zipIdx_map_fst]
  exact greedy

/-- The parts of a seal, for a compact encoding: they hold the sealed records in order, are numbered
from 1 to their count and alike otherwise; a part with more than one record is within the bound; and
every part but the last is full for the next record, as the loop measures it. A store that is within
its bound is always split. -/
theorem split_parts (encoding : Encoding) (compact : encoding.Compact)
    (sealed : RuntimeFactSnapshot) :
    (sealed.records.length ≤ maxRuntimeFacts →
      ∃ parts, splitRuntimeFactSnapshot encoding sealed = .ok parts) ∧
    ∀ parts, splitRuntimeFactSnapshot encoding sealed = .ok parts →
      parts.flatMap (·.records) = sealed.records ∧
      (∀ (index : Nat) (part : RuntimeFactSnapshot), parts[index]? = some part →
        part = { sealed with part := index + 1, parts := parts.length, records := part.records }) ∧
      (∀ part ∈ parts, 1 < part.records.length →
        encoding.snapshotBytes part ≤ maxRuntimeFactSnapshotBytes) ∧
      ∀ (index : Nat) (part following : RuntimeFactSnapshot), parts[index]? = some part →
        parts[index + 1]? = some following →
        ∃ record rest, following.records = record :: rest ∧
          maxRuntimeFactSnapshotBytes < encoding.snapshotBytes
            (widest { part with records := part.records ++ [record] }) := by
  refine ⟨?_, ?_⟩
  · intro bounded
    unfold splitRuntimeFactSnapshot
    dsimp only
    rw [if_neg]
    · exact ⟨_, rfl⟩
    refine Nat.not_lt.mpr ((splitGroups_length _ _ _ _).2.trans ?_)
    simp only [length_nil, maxRuntimeFacts, u16Max] at bounded ⊢
    omega
  intro parts split
  obtain ⟨-, whole, numbered⟩ := splitRuntimeFactSnapshot_ok split
  obtain ⟨few, greedy⟩ := splitRuntimeFactSnapshot_groups split
  have envelope : ∀ (index : Nat) (part : RuntimeFactSnapshot), parts[index]? = some part →
      widest { part with records := [] } = widest { sealed with records := [] } := by
    intro index part found
    rw [numbered index part found]
    rfl
  refine ⟨whole, numbered, ?_, ?_⟩
  · intro part member long
    obtain ⟨index, found⟩ := mem_iff_getElem?.mp member
    have isPart := numbered index part found
    have within : index < parts.length := (List.getElem?_eq_some_iff.mp found).1
    have fits := greedy.fits part.records (List.mem_map_of_mem member) long
    have narrower := compact.monotone part u16Max u16Max (by rw [isPart]; dsimp only; omega)
      (by rw [isPart]; exact few)
    rw [← envelope index part found] at fits
    rw [compact.adds]
    simp only [groupBytes, widest] at fits narrower ⊢
    omega
  intro index part following found next
  have pair : FullFor encoding (encoding.snapshotBytes (widest { sealed with records := [] }))
      part.records following.records := by
    have within : index + 1 < parts.length := (List.getElem?_eq_some_iff.mp next).1
    have full := isChain_iff_getElem.mp greedy.full index (by simpa using within)
    rw [List.getElem?_eq_some_iff] at found next
    obtain ⟨-, rfl⟩ := found
    obtain ⟨-, rfl⟩ := next
    simpa using full
  obtain ⟨record, rest, isRecords, full⟩ := pair
  refine ⟨record, rest, isRecords, ?_⟩
  rw [← envelope index part found] at full
  rw [compact.adds]
  exact full

/-- Records of 300000 bytes in an envelope that grows with the digits of its part numbers. -/
def wideRecords : Encoding where
  recordBytes _ := 300000
  snapshotBytes snapshot :=
    100 + Nat.log 10 snapshot.part + Nat.log 10 snapshot.parts +
      (snapshot.records.map fun _ => 300000).sum + (snapshot.records.length - 1)

lemma wideRecords_compact : wideRecords.Compact where
  adds snapshot := by
    simp [groupBytes, wideRecords]
  monotone snapshot part parts less fewer := by
    have first := Nat.log_mono_right (b := 10) less
    have second := Nat.log_mono_right (b := 10) fewer
    simp only [wideRecords, map_nil, sum_nil, length_nil]
    omega

def twoFlags : RuntimeFactSnapshot :=
  ⟨runtimeFactSchemaVersion, 3, 1000, 3, 1, 1,
    [⟨.runtime, "host.a", .boolean true, 1000, .runtime, none⟩,
      ⟨.runtime, "host.b", .boolean true, 1000, .runtime, none⟩]⟩

theorem split_parts_two_flags :
    ∃ parts, splitRuntimeFactSnapshot wideRecords twoFlags = .ok parts ∧
      parts.flatMap (·.records) = twoFlags.records := by
  have both := split_parts wideRecords wideRecords_compact twoFlags
  obtain ⟨parts, split⟩ := both.1 (by decide)
  exact ⟨parts, split, (both.2 parts split).1⟩

end Split

/-! ## The search -/

structure SkippedRuntimeFactSnapshotSet where
  snapshotId : Nat
  partsFound : Nat
  parts : Nat
deriving DecidableEq

abbrev SequencedPart := Nat × RuntimeFactSnapshot

structure RuntimeFactSnapshotSetSearch where
  set : Option (List SequencedPart)
  skipped : List SkippedRuntimeFactSnapshotSet

section Search

variable {σ ε : Type} (source : Source σ ε SequencedPart)

/-- The older parts of one set, while the next older part is the one expected: how far it got, the
parts, and the part that was read but does not belong to the set. -/
def collectOlder (snapshotId parts : Nat) : Nat → List SequencedPart → σ →
    Except ε (Nat × List SequencedPart × Option SequencedPart × σ)
  | expected + 2, set, state =>
    match source.next state with
    | .error error => .error error
    | .ok none => .ok (expected + 2, set, none, state)
    | .ok (some (older, rest)) =>
      if older.2.snapshotId = snapshotId ∧ older.2.part = expected + 1 ∧ older.2.parts = parts then
        collectOlder snapshotId parts (expected + 1) (set ++ [older]) rest
      else .ok (expected + 2, set, some older, rest)
  | expected, set, state => .ok (expected, set, none, state)

variable {parts snapshotId expected : Nat} {state rest : σ}

lemma collectOlder_size {reached : Nat} {set collected pending}
    (answer : collectOlder source snapshotId parts expected set state =
      .ok (reached, collected, pending, rest)) :
    source.size rest ≤ source.size state ∧
      (pending.isSome = true → source.size rest < source.size state) := by
  fun_induction collectOlder source snapshotId parts expected set state with
  | case1 => cases answer
  | case2 | case5 =>
    cases answer
    exact ⟨le_refl _, fun some => nomatch some⟩
  | case3 set state expected older next found same ih =>
    have smaller := source.smaller found
    have later := ih answer
    exact ⟨by omega, fun _ => by omega⟩
  | case4 set state expected older next found other =>
    cases answer
    have smaller := source.smaller found
    exact ⟨by omega, fun _ => smaller⟩

/-- The search from one part on, newest first. -/
def newestCompleteFrom (newest : SequencedPart) (state : σ)
    (skipped : List SkippedRuntimeFactSnapshotSet) : Except ε RuntimeFactSnapshotSetSearch :=
  match collected : collectOlder source newest.2.snapshotId newest.2.parts newest.2.part [newest]
      state with
  | .error error => .error error
  | .ok (expected, set, pending, rest) =>
    if expected = 1 ∧ newest.2.part = newest.2.parts then .ok ⟨some set.reverse, skipped⟩
    else
      let skipped := skipped ++
        [⟨newest.2.snapshotId, newest.2.part - expected + 1, newest.2.parts⟩]
      if expected = 1 then
        match found : source.next rest with
        | .error error => .error error
        | .ok none => .ok ⟨none, skipped⟩
        | .ok (some (older, last)) =>
          have := collectOlder_size source collected
          have := source.smaller found
          newestCompleteFrom older last skipped
      else
        match pending with
        | none => .ok ⟨none, skipped⟩
        | some older =>
          have := (collectOlder_size source collected).2 rfl
          newestCompleteFrom older rest skipped
termination_by source.size state

/-- The newest set of which every part is there, contiguous among the parts, and the incomplete
sets passed over before it. -/
def newestCompleteRuntimeFactSnapshotSet (state : σ) : Except ε RuntimeFactSnapshotSetSearch :=
  match source.next state with
  | .error error => .error error
  | .ok none => .ok ⟨none, []⟩
  | .ok (some (newest, rest)) => newestCompleteFrom source newest rest []

variable {source}

variable (source state) in
/-- The search at a state, with the sets passed over before it. -/
def continueFrom
    (skipped : List SkippedRuntimeFactSnapshotSet) : Except ε RuntimeFactSnapshotSetSearch :=
  match source.next state with
  | .error error => .error error
  | .ok none => .ok ⟨none, skipped⟩
  | .ok (some (newest, rest)) => newestCompleteFrom source newest rest skipped

variable {newest : SequencedPart}

/-- The search from one part on, once its run is collected. -/
theorem newestCompleteFrom_eq {set pending}
    (answer : collectOlder source newest.2.snapshotId newest.2.parts newest.2.part [newest] state =
      .ok (expected, set, pending, rest))
    (skipped : List SkippedRuntimeFactSnapshotSet) :
    newestCompleteFrom source newest state skipped =
      if expected = 1 ∧ newest.2.part = newest.2.parts then .ok ⟨some set.reverse, skipped⟩
      else
        let skipped := skipped ++
          [⟨newest.2.snapshotId, newest.2.part - expected + 1, newest.2.parts⟩]
        if expected = 1 then continueFrom source rest skipped
        else
          match pending with
          | none => .ok ⟨none, skipped⟩
          | some older => newestCompleteFrom source older rest skipped := by
  rw [newestCompleteFrom]
  split
  · rename_i error collected
    rw [answer] at collected
    cases collected
  rename_i reached collectedSet read state' collected
  rw [answer] at collected
  obtain ⟨rfl, rfl, rfl, rfl⟩ : expected = reached ∧ set = collectedSet ∧ pending = read ∧
      rest = state' := by simpa using collected
  split
  · rfl
  dsimp only
  split
  · rw [continueFrom]
    split <;> rename_i found <;> rw [found]
  · cases pending <;> rfl

/-! ## The first complete set of any stream -/

/-- The parts of one set that were appended, newest first: from some part down to the first. -/
def Descends (snapshotId parts : Nat) : Nat → List SequencedPart → Prop
  | 0, older => older = []
  | part + 1, older => ∃ first rest, older = first :: rest ∧ first.2.snapshotId = snapshotId ∧
      first.2.part = part + 1 ∧ first.2.parts = parts ∧ Descends snapshotId parts part rest

def follows (newer older : SequencedPart) : Bool :=
  older.2.snapshotId = newer.2.snapshotId && older.2.part + 1 = newer.2.part &&
    older.2.parts = newer.2.parts

/-- Parts `parts`, `parts - 1`, ..., 1 of one set. -/
def CompleteRun (run : List SequencedPart) : Prop :=
  ∃ snapshotId parts, 0 < parts ∧ Descends snapshotId parts parts run

/-- What the search says of a run it passes over. -/
def skippedRun (run : List SequencedPart) : Option SkippedRuntimeFactSnapshotSet :=
  run.head?.map fun newest => ⟨newest.2.snapshotId, run.length, newest.2.parts⟩

/-- A part number within its set, as every part that was validated has. -/
def Placed (entry : SequencedPart) : Prop := 0 < entry.2.part ∧ entry.2.part ≤ entry.2.parts

lemma placed_of_validate {entry} (valid : entry.2.validate = .ok ()) : Placed entry := by
  obtain ⟨-, -, first, last, -⟩ := RuntimeFactSnapshot.validate_ok_iff.mp valid
  exact ⟨first, last⟩

lemma follows_iff {newer older} :
    follows newer older = true ↔ older.2.snapshotId = newer.2.snapshotId ∧
      older.2.part + 1 = newer.2.part ∧ older.2.parts = newer.2.parts := by
  simp [follows, and_assoc]

variable {segment : List SequencedPart}

/-- The parts of a run are numbered downwards, so a run is no longer than its first number. -/
theorem length_le_of_chain (chain : (newest :: segment).IsChain fun a b => follows a b = true)
    (placed : ∀ entry ∈ newest :: segment, Placed entry) : segment.length + 1 ≤ newest.2.part := by
  induction segment generalizing newest with
  | nil => exact (placed newest mem_cons_self).1
  | cons older segment ih =>
    rw [isChain_cons_cons] at chain
    have shorter := ih chain.2 fun entry member => placed entry (mem_cons_of_mem _ member)
    have number := (follows_iff.mp chain.1).2.1
    simp only [length_cons]
    omega

lemma descends_of_chain (chain : (newest :: segment).IsChain fun a b => follows a b = true)
    (first : newest.2.part = segment.length + 1) :
    Descends newest.2.snapshotId newest.2.parts (segment.length + 1) (newest :: segment) := by
  induction segment generalizing newest with
  | nil => exact ⟨newest, [], rfl, rfl, first, rfl, rfl⟩
  | cons older segment ih =>
    rw [isChain_cons_cons] at chain
    obtain ⟨id, number, count⟩ := follows_iff.mp chain.1
    have later := ih chain.2 (by simp only [length_cons] at first; omega)
    rw [id, count] at later
    exact ⟨newest, older :: segment, rfl, rfl, first, rfl, later⟩

lemma Descends.chain {last : Nat} {items} (descends : Descends snapshotId parts last items) :
    items.length = last ∧ items.IsChain fun a b => follows a b = true := by
  induction last generalizing items with
  | zero =>
    obtain rfl : items = [] := descends
    exact ⟨rfl, isChain_nil⟩
  | succ last ih =>
    obtain ⟨first, rest, rfl, id, part, count, later⟩ := descends
    obtain ⟨length, chain⟩ := ih later
    refine ⟨by rw [length_cons, length], ?_⟩
    cases last with
    | zero =>
      obtain rfl : rest = [] := later
      exact isChain_singleton _
    | succ last =>
      obtain ⟨second, others, rfl, secondId, secondPart, secondCount, -⟩ := later
      rw [isChain_cons_cons]
      refine ⟨follows_iff.mpr ⟨?_, ?_, ?_⟩, chain⟩
      · rw [secondId, id]
      · rw [secondPart, part]
      · rw [secondCount, count]

/-- A run of parts is complete when it starts with the last part and has as many parts. -/
theorem completeRun_iff (chain : (newest :: segment).IsChain fun a b => follows a b = true) :
    CompleteRun (newest :: segment) ↔
      newest.2.part = segment.length + 1 ∧ newest.2.part = newest.2.parts := by
  constructor
  · rintro ⟨snapshotId, parts, positive, descends⟩
    have length := descends.chain.1
    obtain ⟨last, rfl⟩ : ∃ last, parts = last + 1 := ⟨parts - 1, by omega⟩
    obtain ⟨first, rest, same, -, part, count, -⟩ := descends
    obtain ⟨rfl, rfl⟩ := cons.inj same
    rw [length_cons] at length
    omega
  · rintro ⟨first, whole⟩
    refine ⟨newest.2.snapshotId, newest.2.parts, by omega, ?_⟩
    have descends := descends_of_chain chain first
    rw [← first, whole] at descends
    exact descends

/-- The parts of one run are collected one by one. -/
theorem collectOlder_chain (chain : (newest :: segment).IsChain fun a b => follows a b = true)
    (placed : ∀ entry ∈ newest :: segment, Placed entry) (reads : source.Reads state segment rest)
    (set : List SequencedPart) :
    collectOlder source newest.2.snapshotId newest.2.parts newest.2.part set state =
      collectOlder source newest.2.snapshotId newest.2.parts (newest.2.part - segment.length)
        (set ++ segment) rest := by
  induction segment generalizing newest state set with
  | nil =>
    cases reads
    rw [append_nil]
    rfl
  | cons older segment ih =>
    have long := length_le_of_chain chain placed
    rw [isChain_cons_cons] at chain
    obtain ⟨id, number, count⟩ := follows_iff.mp chain.1
    cases reads with
    | more found reads =>
      have later := ih chain.2 (fun entry member => placed entry (mem_cons_of_mem _ member))
        reads (set ++ [older])
      rw [id, count, append_assoc] at later
      have above : older.2.part = newest.2.part - 2 + 1 := by
        simp only [length_cons] at long
        omega
      have shape : newest.2.part = newest.2.part - 2 + 2 := by omega
      have left : newest.2.part - (older :: segment).length = older.2.part - segment.length := by
        simp only [length_cons]
        omega
      rw [left]
      calc collectOlder source newest.2.snapshotId newest.2.parts newest.2.part set state
          = collectOlder source newest.2.snapshotId newest.2.parts older.2.part (set ++ [older])
              _ := by
            conv_lhs => rw [shape]
            rw [collectOlder, found]
            simp [id, count, above, and_self]
        _ = _ := later

lemma collectOlder_one (snapshotId parts : Nat) (set : List SequencedPart) (state : σ) :
    collectOlder source snapshotId parts 1 set state = .ok (1, set, none, state) := by
  rw [collectOlder]
  intro expected same
  omega

/-- The last part of a run, by its first one. -/
theorem chain_last {oldest} (chain : (newest :: segment).IsChain fun a b => follows a b = true)
    (last : oldest ∈ (newest :: segment).getLast?) :
    oldest.2.snapshotId = newest.2.snapshotId ∧ oldest.2.part + segment.length = newest.2.part ∧
      oldest.2.parts = newest.2.parts := by
  induction segment generalizing newest with
  | nil =>
    obtain rfl : newest = oldest := by simpa using last
    exact ⟨rfl, rfl, rfl⟩
  | cons older segment ih =>
    rw [isChain_cons_cons] at chain
    obtain ⟨id, number, count⟩ := follows_iff.mp chain.1
    rw [getLast?_cons_cons] at last
    obtain ⟨sameId, below, sameCount⟩ := ih chain.2 last
    refine ⟨sameId.trans id, ?_, sameCount.trans count⟩
    rw [length_cons]
    omega

/-- Behind its first part a set does not go on. -/
theorem first_apart {oldest older}
    (chain : (newest :: segment).IsChain fun a b => follows a b = true)
    (first : newest.2.part = segment.length + 1) (last : oldest ∈ (newest :: segment).getLast?)
    (placed : Placed older) : follows oldest older = false := by
  obtain ⟨-, number, -⟩ := chain_last chain last
  rw [Bool.eq_false_iff]
  intro holds
  obtain ⟨-, below, -⟩ := follows_iff.mp holds
  have inside := placed.1
  omega

section

variable (chain : (newest :: segment).IsChain fun a b => follows a b = true)
  (placed : ∀ entry ∈ newest :: segment, Placed entry) (reads : source.Reads state segment rest)

include chain placed reads

/-- A complete run is the answer, whatever the source would hand out behind it. -/
theorem newestCompleteFrom_complete (complete : CompleteRun (newest :: segment))
    (skipped : List SkippedRuntimeFactSnapshotSet) :
    newestCompleteFrom source newest state skipped =
      .ok ⟨some (newest :: segment).reverse, skipped⟩ := by
  obtain ⟨first, whole⟩ := (completeRun_iff chain).mp complete
  have answer := collectOlder_chain chain placed reads [newest]
  rw [show newest.2.part - segment.length = 1 by omega, collectOlder_one] at answer
  rw [newestCompleteFrom_eq answer, if_pos ⟨rfl, whole⟩]
  rfl

/-- Behind an incomplete run the search goes on with the next part. -/
theorem newestCompleteFrom_incomplete (incomplete : ¬ CompleteRun (newest :: segment))
    (ends : ∀ older last, source.next rest = .ok (some (older, last)) →
      ∀ oldest ∈ (newest :: segment).getLast?, follows oldest older = false)
    (skipped : List SkippedRuntimeFactSnapshotSet) :
    newestCompleteFrom source newest state skipped =
      continueFrom source rest
        (skipped ++ [⟨newest.2.snapshotId, segment.length + 1, newest.2.parts⟩]) := by
  have long := length_le_of_chain chain placed
  have answer := collectOlder_chain chain placed reads [newest]
  rw [completeRun_iff chain] at incomplete
  have found : newest.2.part - (newest.2.part - segment.length) + 1 = segment.length + 1 := by omega
  by_cases atFirst : newest.2.part = segment.length + 1
  · rw [show newest.2.part - segment.length = 1 by omega, collectOlder_one] at answer
    rw [newestCompleteFrom_eq answer, if_neg fun both => incomplete ⟨atFirst, both.2⟩]
    simp [atFirst]
  -- The run stops above part 1: the part that was read belongs to the next run.
  obtain ⟨reached, above⟩ : ∃ reached, newest.2.part - segment.length = reached + 2 :=
    ⟨newest.2.part - segment.length - 2, by omega⟩
  rw [above] at answer found
  rw [collectOlder] at answer
  rw [continueFrom]
  cases next : source.next rest with
  | error error =>
    rw [next] at answer
    rw [newestCompleteFrom]
    split
    · rename_i other collected
      cases answer.symm.trans collected
      rfl
    · rename_i collected
      cases answer.symm.trans collected
  | ok read =>
    rw [next] at answer
    cases read with
    | none =>
      rw [newestCompleteFrom_eq answer, if_neg (by omega)]
      simp [found]
    | some entry =>
      obtain ⟨older, last⟩ := entry
      obtain ⟨oldest, isLast⟩ : ∃ oldest, (newest :: segment).getLast? = some oldest :=
        ⟨_, getLast?_eq_some_getLast (cons_ne_nil _ _)⟩
      obtain ⟨id, number, count⟩ := chain_last chain isLast
      have other := ends older last next oldest isLast
      have notNext : ¬ (older.2.snapshotId = newest.2.snapshotId ∧ older.2.part = reached + 1 ∧
          older.2.parts = newest.2.parts) := by
        rintro ⟨sameId, below, sameCount⟩
        rw [Bool.eq_false_iff] at other
        refine other (follows_iff.mpr ⟨sameId.trans id.symm, ?_, sameCount.trans count.symm⟩)
        omega
      simp only [if_neg notNext] at answer
      rw [newestCompleteFrom_eq answer, if_neg (by omega)]
      simp [found]

end

/-- Runs in a row: each is a run, and none goes on in the next. -/
structure Runs (runs : List (List SequencedPart)) : Prop where
  nonempty : ∀ run ∈ runs, run ≠ []
  chained : ∀ run ∈ runs, run.IsChain fun a b => follows a b = true
  placed : ∀ entry ∈ runs.flatten, Placed entry
  apart : runs.IsChain fun a b => ∀ oldest ∈ a.getLast?, ∀ newest ∈ b.head?,
    follows oldest newest = false

variable {stream : List SequencedPart}

lemma runs_splitBy (placed : ∀ entry ∈ stream, Placed entry) :
    Runs (stream.splitBy follows) where
  nonempty run member := ne_nil_of_mem_splitBy member
  chained run member := isChain_of_mem_splitBy member
  placed entry member := placed entry (by rwa [flatten_splitBy] at member)
  apart := by
    refine (isChain_getLast_head_splitBy follows stream).imp ?_
    rintro a b ⟨someA, someB, apart⟩ oldest isOldest newest isNewest
    rw [getLast?_eq_some_getLast someA, mem_some_iff] at isOldest
    rw [head?_eq_some_head someB, mem_some_iff] at isNewest
    rw [← isOldest, ← isNewest]
    exact apart

variable {run : List SequencedPart} {runs : List (List SequencedPart)}

lemma Runs.tail (all : Runs (run :: runs)) : Runs runs where
  nonempty other member := all.nonempty other (mem_cons_of_mem _ member)
  chained other member := all.chained other (mem_cons_of_mem _ member)
  placed entry member := all.placed entry (by
    rw [flatten_cons]
    exact mem_append_right _ member)
  apart := all.apart.tail

variable {passed : List (List SequencedPart)}

/-- Incomplete runs are passed over, each with what the search says of it. -/
theorem continueFrom_passes (all : Runs passed) (incomplete : ∀ run ∈ passed, ¬ CompleteRun run)
    (reads : source.Reads state passed.flatten rest)
    (ends : ∀ older last, source.next rest = .ok (some (older, last)) →
      ∀ oldest ∈ passed.flatten.getLast?, follows oldest older = false)
    (skipped : List SkippedRuntimeFactSnapshotSet) :
    continueFrom source state skipped =
      continueFrom source rest (skipped ++ passed.filterMap skippedRun) := by
  induction passed generalizing state skipped with
  | nil =>
    cases reads
    rw [filterMap_nil, append_nil]
  | cons run passed ih =>
    obtain ⟨newest, segment, rfl⟩ := exists_cons_of_ne_nil (all.nonempty run mem_cons_self)
    rw [flatten_cons, cons_append] at reads ends
    cases reads with
    | more found reads =>
      obtain ⟨middle, own, later⟩ := reads.split
      have apart : ∀ older last, source.next middle = .ok (some (older, last)) →
          ∀ oldest ∈ (newest :: segment).getLast?, follows oldest older = false := by
        intro older last next oldest isLast
        cases passed with
        | nil =>
          cases later
          rw [flatten_nil, append_nil] at ends
          exact ends older last next oldest isLast
        | cons other passed =>
          obtain ⟨first, others, rfl⟩ := exists_cons_of_ne_nil
            (all.tail.nonempty other mem_cons_self)
          rw [flatten_cons, cons_append] at later
          cases later with
          | more found later =>
            rw [found] at next
            obtain ⟨rfl, rfl⟩ : first = older ∧ _ = last := by simpa using next
            exact (isChain_cons_cons.mp all.apart).1 oldest isLast first rfl
      have placed : ∀ entry ∈ newest :: segment, Placed entry := by
        intro entry member
        refine all.placed entry ?_
        rw [flatten_cons]
        exact mem_append_left _ member
      have passes := newestCompleteFrom_incomplete (all.chained _ mem_cons_self) placed own
        (incomplete _ mem_cons_self) apart skipped
      have behind : ∀ older last, source.next rest = .ok (some (older, last)) →
          ∀ oldest ∈ passed.flatten.getLast?, follows oldest older = false := by
        intro older last next oldest isLast
        refine ends older last next oldest ?_
        rw [mem_def] at isLast ⊢
        rw [← cons_append, getLast?_append, isLast]
        rfl
      rw [continueFrom, found]
      dsimp only
      rw [passes, ih all.tail (fun run member => incomplete run (mem_cons_of_mem _ member))
        later behind, append_assoc]
      rfl

/-- No part is the next newer one of a last part. -/
theorem complete_apart {entry} (placed : Placed entry)
    (complete : CompleteRun (newest :: segment)) : follows entry newest = false := by
  obtain ⟨snapshotId, parts, positive, descends⟩ := complete
  have chain := descends.chain.2
  obtain ⟨-, whole⟩ := (completeRun_iff chain).mp ⟨snapshotId, parts, positive, descends⟩
  rw [Bool.eq_false_iff]
  intro holds
  obtain ⟨-, number, count⟩ := follows_iff.mp holds
  have within := placed.2
  omega

/-- A complete run stands for itself among the runs of a stream. -/
theorem splitBy_complete {before after}
    (placed : ∀ entry ∈ before ++ run ++ after, Placed entry) (complete : CompleteRun run) :
    (before ++ run ++ after).splitBy follows =
      before.splitBy follows ++ run :: after.splitBy follows := by
  obtain ⟨snapshotId, parts, positive, descends⟩ := id complete
  obtain ⟨length, chain⟩ := descends.chain
  obtain ⟨newest, segment, rfl⟩ := exists_cons_of_length_pos (length ▸ positive)
  obtain ⟨first, -⟩ := (completeRun_iff chain).mp complete
  have behind : ∀ oldest ∈ (newest :: segment).getLast?, ∀ older ∈ after.head?,
      follows oldest older = false := fun oldest isLast older isHead =>
    first_apart chain first isLast (placed older (mem_append_right _ (mem_of_mem_head? isHead)))
  have ahead : ∀ oldest ∈ before.getLast?, ∀ older ∈ ((newest :: segment) ++ after).head?,
      follows oldest older = false := by
    intro oldest isLast older isHead
    obtain rfl : newest = older := by simpa using isHead
    refine complete_apart (placed oldest ?_) complete
    exact mem_append_left _ (mem_append_left _ (mem_of_mem_getLast? isLast))
  rw [append_assoc, splitBy_append ahead, splitBy_append behind,
    splitBy_of_isChain (cons_ne_nil _ _) chain]
  rfl

lemma Descends.numbers {last : Nat} {items} (descends : Descends snapshotId parts last items) :
    items.reverse.map (·.2.part) = List.range' 1 last := by
  induction last generalizing items with
  | zero =>
    obtain rfl : items = [] := descends
    rfl
  | succ last ih =>
    obtain ⟨first, rest, rfl, -, part, -, later⟩ := descends
    rw [reverse_cons, map_append, ih later, map_singleton, part, range'_1_concat, Nat.add_comm]

theorem exists_first_run {condition : List SequencedPart → Prop}
    (some : ∃ run ∈ runs, condition run) :
    ∃ passed run later, runs = passed ++ run :: later ∧ condition run ∧
      ∀ other ∈ passed, ¬ condition other := by
  classical
  obtain ⟨run, member, holds⟩ := some
  obtain ⟨first, found⟩ : ∃ first, runs.find? (fun run => decide (condition run)) =
    .some first := by
    rw [← isSome_iff_exists, find?_isSome]
    exact ⟨run, member, decide_eq_true holds⟩
  obtain ⟨isFirst, passed, later, isRuns, before⟩ := find?_eq_some_iff_append.mp found
  exact ⟨passed, first, later, isRuns, of_decide_eq_true isFirst, fun other member => by
    simpa using before other member⟩

/-- Once the incomplete runs and then a complete one are read, the search has its answer, whatever
the source would hand out next. -/
theorem newestComplete_reads {last : σ} (all : Runs passed)
    (incomplete : ∀ other ∈ passed, ¬ CompleteRun other) (complete : CompleteRun run)
    (placed : ∀ entry ∈ run, Placed entry)
    (reads : source.Reads state (passed.flatten ++ run) last) :
    newestCompleteRuntimeFactSnapshotSet source state =
      .ok ⟨some run.reverse, passed.filterMap skippedRun⟩ := by
  obtain ⟨snapshotId, parts, positive, descends⟩ := id complete
  obtain ⟨length, chain⟩ := descends.chain
  obtain ⟨newest, segment, rfl⟩ := exists_cons_of_length_pos (length ▸ positive)
  obtain ⟨middle, before, own⟩ := reads.split
  cases own with
  | more found own =>
    have ends : ∀ older rest, source.next middle = .ok (some (older, rest)) →
        ∀ oldest ∈ passed.flatten.getLast?, follows oldest older = false := by
      intro older rest next oldest isLast
      rw [found] at next
      obtain ⟨rfl, -⟩ : newest = older ∧ _ := by simpa using next
      exact complete_apart (all.placed oldest (mem_of_mem_getLast? isLast)) complete
    change continueFrom source state [] = _
    rw [continueFrom_passes all incomplete before ends, continueFrom, found]
    dsimp only
    rw [newestCompleteFrom_complete chain placed own complete, nil_append]

/-- Without a complete run the search passes over every run of the stream. -/
theorem newestComplete_none (placed : ∀ entry ∈ stream, Placed entry)
    (yields : source.Yields state stream)
    (incomplete : ∀ run ∈ stream.splitBy follows, ¬ CompleteRun run) :
    newestCompleteRuntimeFactSnapshotSet source state =
      .ok ⟨none, (stream.splitBy follows).filterMap skippedRun⟩ := by
  rw [← append_nil stream] at yields
  obtain ⟨rest, reads, done⟩ := yields.reads
  cases done with
  | done none =>
    rw [← flatten_splitBy follows stream] at reads
    change continueFrom source state [] = _
    rw [continueFrom_passes (runs_splitBy placed) incomplete reads, continueFrom, none, nil_append]
    intro older last next
    rw [none] at next
    cases next

lemma Runs.of_append {later} (all : Runs (passed ++ later)) :
    Runs passed where
  nonempty run member := all.nonempty run (mem_append_left _ member)
  chained run member := all.chained run (mem_append_left _ member)
  placed entry member := all.placed entry (by
    rw [flatten_append]
    exact mem_append_left _ member)
  apart := (isChain_append.mp all.apart).1

lemma Runs.splitBy (all : Runs runs) : runs.flatten.splitBy follows = runs := by
  refine splitBy_flatten (fun empty => all.nonempty [] empty rfl) all.chained ?_
  refine all.apart.imp_of_mem_imp ?_
  intro a b inA inB apart
  refine ⟨all.nonempty a inA, all.nonempty b inB, ?_⟩
  exact apart _ (getLast?_eq_some_getLast _) _ (head?_eq_some_head _)

/-- No complete run starts before the first one among the runs of a stream. -/
theorem complete_not_earlier {later} (placed : ∀ entry ∈ stream, Placed entry)
    (isRuns : stream.splitBy follows = passed ++ run :: later)
    (before : ∀ other ∈ passed, ¬ CompleteRun other) {earlier other behind}
    (isStream : stream = earlier ++ other ++ behind) (complete : CompleteRun other) :
    passed.flatten.length ≤ earlier.length := by
  rw [isStream, splitBy_complete (by rwa [isStream] at placed) complete] at isRuns
  rw [← flatten_splitBy follows earlier]
  rcases append_eq_append_iff.mp isRuns with ⟨more, isPassed, isRest⟩ | ⟨more, isEarlier, -⟩
  · -- The other run would be one of the runs passed over.
    cases more with
    | nil => rw [isPassed, append_nil]
    | cons first more =>
      obtain ⟨rfl, -⟩ := cons.inj isRest
      refine absurd complete (before _ ?_)
      rw [isPassed]
      simp
  · rw [isEarlier, flatten_append, length_append]
    omega

variable (source state stream)

/-- The search of any stream of validated parts. It answers the first complete run, in part order;
the runs it lists as skipped are the maximal runs before it, none of them complete; a source that
hands out the stream up to the end of that run gets the same answer, whatever it would hand out
then; and there is no answer exactly when the stream has no complete run. -/
theorem newest_complete_set (valid : ∀ entry ∈ stream, entry.2.validate = .ok ())
    (yields : source.Yields state stream) :
    ∃ search, newestCompleteRuntimeFactSnapshotSet source state = .ok search ∧
      (search.set = none ↔
        ¬ ∃ before run after, stream = before ++ run ++ after ∧ CompleteRun run) ∧
      (search.set = none → search.skipped = (stream.splitBy follows).filterMap skippedRun) ∧
      ∀ set, search.set = some set → ∃ before run after,
        stream = before ++ run ++ after ∧ CompleteRun run ∧ set = run.reverse ∧
        set.map (·.2.part) = List.range' 1 set.length ∧
        (∀ earlier other later, stream = earlier ++ other ++ later → CompleteRun other →
          before.length ≤ earlier.length) ∧
        stream.splitBy follows = before.splitBy follows ++ run :: after.splitBy follows ∧
        (∀ passed ∈ before.splitBy follows, ¬ CompleteRun passed) ∧
        search.skipped = (before.splitBy follows).filterMap skippedRun ∧
        ∀ (τ δ : Type) (other : Source τ δ SequencedPart) (start last : τ),
          other.Reads start (before ++ run) last →
          newestCompleteRuntimeFactSnapshotSet other start = .ok search := by
  have placed : ∀ entry ∈ stream, Placed entry :=
    fun entry member => placed_of_validate (valid entry member)
  by_cases found : ∃ run ∈ stream.splitBy follows, CompleteRun run
  · obtain ⟨passed, run, later, isRuns, complete, before⟩ := exists_first_run found
    have all := runs_splitBy placed
    rw [isRuns] at all
    have passedRuns : passed.flatten.splitBy follows = passed := all.of_append.splitBy
    have isStream : stream = passed.flatten ++ run ++ later.flatten := by
      rw [← flatten_splitBy follows stream, isRuns, flatten_append, flatten_cons, append_assoc]
    have inRun : ∀ entry ∈ run, Placed entry := by
      intro entry member
      refine placed entry ?_
      rw [isStream]
      exact mem_append_left _ (mem_append_right _ member)
    have reading : ∀ (τ δ : Type) (other : Source τ δ SequencedPart) (start last : τ),
        other.Reads start (passed.flatten ++ run) last →
        newestCompleteRuntimeFactSnapshotSet other start =
          .ok ⟨some run.reverse, passed.filterMap skippedRun⟩ := by
      intro τ δ other start last reads
      exact newestComplete_reads all.of_append before complete inRun reads
    have own := yields
    rw [isStream] at own
    obtain ⟨rest, reads, -⟩ := own.reads
    refine ⟨⟨some run.reverse, passed.filterMap skippedRun⟩, reading σ ε source state rest reads,
      ?_, ?_, ?_⟩
    · refine ⟨fun none => (nomatch none), fun absent => ?_⟩
      exact absurd ⟨passed.flatten, run, later.flatten, isStream, complete⟩ absent
    · intro none
      cases none
    intro set isSet
    obtain rfl : run.reverse = set := some.inj isSet
    refine ⟨passed.flatten, run, later.flatten, isStream, complete, rfl, ?_, ?_, ?_, ?_, ?_,
      reading⟩
    · obtain ⟨snapshotId, parts, -, descends⟩ := complete
      rw [descends.numbers, length_reverse, descends.chain.1]
    · intro earlier other behind isOther otherComplete
      exact complete_not_earlier placed isRuns before isOther otherComplete
    · rw [isStream] at placed ⊢
      exact splitBy_complete placed complete
    · rw [passedRuns]
      exact before
    · rw [passedRuns]
  · have incomplete : ∀ run ∈ stream.splitBy follows, ¬ CompleteRun run :=
      fun run member complete => found ⟨run, member, complete⟩
    refine ⟨_, newestComplete_none placed yields incomplete, ?_, fun _ => rfl, ?_⟩
    · refine ⟨fun _ => ?_, fun _ => rfl⟩
      rintro ⟨before, run, after, isStream, complete⟩
      refine incomplete run ?_ complete
      rw [isStream] at placed ⊢
      rw [splitBy_complete placed complete]
      simp
    · intro set isSet
      cases isSet

def listed : Source (List SequencedPart) Empty SequencedPart where
  next
    | [] => .ok none
    | entry :: rest => .ok (some (entry, rest))
  size := List.length
  smaller {state rest entry} found := by
    cases state with
    | nil => cases found
    | cons first others =>
      cases found
      exact Nat.lt_succ_self _

lemma listed_yields (stream : List SequencedPart) : listed.Yields stream stream := by
  induction stream with
  | nil => exact .done rfl
  | cons entry rest ih => exact .more rfl ih

/-- Part 2 of an interrupted set of three, and behind it a set of two and one of one. -/
def interrupted : List SequencedPart :=
  [(9, ⟨runtimeFactSchemaVersion, 6, 1000, 6, 2, 3, []⟩),
    (5, ⟨runtimeFactSchemaVersion, 3, 1000, 3, 2, 2, []⟩),
    (4, ⟨runtimeFactSchemaVersion, 3, 1000, 3, 1, 2, []⟩),
    (2, ⟨runtimeFactSchemaVersion, 1, 1000, 1, 1, 1, []⟩)]

theorem newest_complete_set_interrupted :
    (∀ entry ∈ interrupted, entry.2.validate = .ok ()) ∧
      ∃ search, newestCompleteRuntimeFactSnapshotSet listed interrupted = .ok search ∧
        search.set ≠ none := by
  have valid : ∀ entry ∈ interrupted, entry.2.validate = .ok () := by
    intro entry member
    rw [RuntimeFactSnapshot.validate_ok_iff]
    fin_cases member <;> decide
  obtain ⟨search, answer, none_iff, -⟩ := newest_complete_set listed interrupted interrupted valid
    (listed_yields interrupted)
  refine ⟨valid, search, answer, fun none => none_iff.mp none ?_⟩
  refine ⟨interrupted.take 1, (interrupted.drop 1).take 2, interrupted.drop 3, rfl, 3, 2, by decide,
    _, _, rfl, rfl, rfl, rfl, _, _, rfl, rfl, rfl, rfl, rfl⟩

end Search

end RuntimeFacts
