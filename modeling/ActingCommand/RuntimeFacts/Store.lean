import ActingCommand.RuntimeFacts.Record

/-!
# The store of runtime facts

A bounded map of live records by scope and key. Every record stands under its own key and
passed its checks, and there are never more of them than the bound. The store reads no
clock and touches no ledger.
-/

namespace RuntimeFacts

open Machine List Std ExtTreeMap

abbrev ActiveFacts := ExtTreeMap FactKey RuntimeFactRecord FactKey.cmp

/-- The records under their own keys, a later one in place of an earlier one of the same key. -/
def keyedRecords (records : List RuntimeFactRecord) : List (FactKey × RuntimeFactRecord) :=
  records.map fun record => (record.factKey, record)

@[ext] structure RuntimeFactStore where
  active : ActiveFacts
  keyed : ∀ (key : FactKey) (record : RuntimeFactRecord), active[key]? = some record →
    record.factKey = key
  valid : ∀ (key : FactKey) (record : RuntimeFactRecord), active[key]? = some record →
    record.validate = .ok ()
  bounded : active.size ≤ maxRuntimeFacts
deriving DecidableEq

inductive RuntimeFactChange
  | inserted
  | updated
  | unchanged
deriving DecidableEq

inductive RuntimeFactError
  | invalid (code : SanitizationCode)
  | stale (existingObservedAtUnixMs : Nat)
  | capacityExceeded (limit : Nat)
  | missing
deriving DecidableEq

/-- `Display`. -/
def RuntimeFactError.text : RuntimeFactError → String
  | invalid code => "runtime fact rejected: " ++ code.asStr
  | stale existing =>
    s!"runtime fact is older than the stored observation at {existing}"
  | capacityExceeded limit => s!"runtime fact store holds {limit} records"
  | missing => "runtime fact is not present"

lemma getElem?_insert_cases {active : ActiveFacts} {record held}
    {key : FactKey} (found : (active.insert record.factKey record)[key]? = some held) :
    (key = record.factKey ∧ held = record) ∨ active[key]? = some held := by
  rw [ExtTreeMap.getElem?_insert] at found
  split at found
  · rename_i same
    exact Or.inl ⟨(LawfulEqCmp.eq_of_compare same).symm, (Option.some.inj found).symm⟩
  · exact Or.inr found

lemma getElem?_insertMany_cases {active : ActiveFacts} {records} {key : FactKey} {held}
    (found : (active.insertMany (keyedRecords records))[key]? = some held) :
    (held ∈ records ∧ held.factKey = key) ∨ active[key]? = some held := by
  induction records generalizing active with
  | nil => exact Or.inr found
  | cons record rest ih =>
    rw [keyedRecords, map_cons, insertMany_cons] at found
    rcases ih found with ⟨listed, same⟩ | inserted
    · exact Or.inl ⟨mem_cons_of_mem _ listed, same⟩
    rcases getElem?_insert_cases inserted with ⟨rfl, rfl⟩ | earlier
    · exact Or.inl ⟨mem_cons_self, rfl⟩
    · exact Or.inr earlier

namespace RuntimeFactStore

def new : RuntimeFactStore where
  active := ∅
  keyed := by simp
  valid := by simp
  bounded := by simp

/-- A valid record under its own key, in place of an older one or within the bound. -/
def insert (store : RuntimeFactStore) (record : RuntimeFactRecord)
    (valid : record.validate = .ok ())
    (room : (store.active.insert record.factKey record).size ≤ maxRuntimeFacts) :
    RuntimeFactStore where
  active := store.active.insert record.factKey record
  keyed key held found := by
    rcases getElem?_insert_cases found with ⟨rfl, rfl⟩ | earlier
    · rfl
    · exact store.keyed key held earlier
  valid key held found := by
    rcases getElem?_insert_cases found with ⟨-, rfl⟩ | earlier
    · exact valid
    · exact store.valid key held earlier
  bounded := room

/-- The store that holds these records, each checked. -/
def ofRecords (records : List RuntimeFactRecord)
    (valid : ∀ record ∈ records, record.validate = .ok ())
    (room : records.length ≤ maxRuntimeFacts) : RuntimeFactStore where
  active := (∅ : ActiveFacts).insertMany (keyedRecords records)
  keyed key held found := by
    rcases getElem?_insertMany_cases found with ⟨-, same⟩ | earlier
    · exact same
    · simp at earlier
  valid key held found := by
    rcases getElem?_insertMany_cases found with ⟨listed, -⟩ | earlier
    · exact valid held listed
    · simp at earlier
  bounded := by
    have size := @size_insertMany_list_le _ _ FactKey.cmp ∅ _
      (keyedRecords records)
    simp only [keyedRecords, length_map, size_empty, Nat.zero_add] at size
    exact size.trans room

/-- A strictly newer observation replaces the stored one, the identical record changes nothing,
and any other observation of the key is refused. -/
def record (store : RuntimeFactStore) (record : RuntimeFactRecord) :
    Except RuntimeFactError (RuntimeFactChange × RuntimeFactStore) :=
  match valid : record.validate with
  | .error error => .error (.invalid error.code)
  | .ok () =>
    match found : store.active[record.factKey]? with
    | some existing =>
      if existing = record then .ok (.unchanged, store)
      else if existing.observedAtUnixMs ≥ record.observedAtUnixMs then
        .error (.stale existing.observedAtUnixMs)
      else
        .ok (.updated, store.insert record valid (by
          rw [size_insert, if_pos (by
            rw [contains_eq_isSome_getElem?, found]
            rfl)]
          exact store.bounded))
    | none =>
      if full : store.active.size ≥ maxRuntimeFacts then
        .error (.capacityExceeded maxRuntimeFacts)
      else
        .ok (.inserted, store.insert record valid (by
          have size := @size_insert_le _ _ FactKey.cmp store.active _
            record.factKey record
          omega))

section

variable (store : RuntimeFactStore) (scope : RuntimeFactScope)

/-- Drops one record and answers the audit entry of the drop. -/
def invalidate (key : String) (reason : RuntimeFactInvalidationReason) (atUnixMs : Nat) :
    Except RuntimeFactError (RuntimeFactInvalidation × RuntimeFactStore) :=
  match store.active[(scope, key)]? with
  | none => .error .missing
  | some removed =>
    .ok (⟨removed.scope, removed.key, reason, atUnixMs⟩,
      { active := store.active.erase (scope, key)
        keyed := fun other held found => store.keyed other held (by
          rw [getElem?_erase] at found
          split at found
          · cases found
          · exact found)
        valid := fun other held found => store.valid other held (by
          rw [getElem?_erase] at found
          split at found
          · cases found
          · exact found)
        bounded := size_erase_le.trans store.bounded })

def get (key : String) : Option RuntimeFactRecord :=
  store.active[(scope, key)]?

/-- All live records in scope and key order. -/
def records : List RuntimeFactRecord :=
  store.active.toList.map (·.2)

/-- Sealed image of every live record, as part 1 of 1 named by its position. -/
def snapshot (ledgerPosition takenAtUnixMs : Nat) : RuntimeFactSnapshot where
  schemaVersion := runtimeFactSchemaVersion
  ledgerPosition := ledgerPosition
  takenAtUnixMs := takenAtUnixMs
  snapshotId := ledgerPosition
  part := 1
  parts := 1
  records := store.records

end

/-- Replaces the whole store with a sealed image. -/
def replay (snapshot : RuntimeFactSnapshot) : Except RuntimeFactError RuntimeFactStore :=
  match valid : snapshot.validate with
  | .error error => .error (.invalid error.code)
  | .ok () =>
    .ok (ofRecords snapshot.records (RuntimeFactSnapshot.validate_ok_iff.mp valid).2.2.2.2.2
      (RuntimeFactSnapshot.validate_ok_iff.mp valid).2.2.2.2.1)

/-! ## What a sealed image brings back -/

variable {store : RuntimeFactStore}

lemma keyedRecords_records : keyedRecords store.records = store.active.toList := by
  rw [keyedRecords, records, List.map_map]
  calc
    store.active.toList.map _ = store.active.toList.map id := by
      refine map_congr_left fun entry listed => ?_
      have own := store.keyed entry.1 entry.2
        (mem_toList_iff_getElem?_eq_some.mp listed)
      exact Prod.ext own rfl
    _ = store.active.toList := List.map_id _

lemma length_records : store.records.length = store.active.size := by
  rw [records, length_map, length_toList]

lemma records_valid {held} (listed : held ∈ store.records) : held.validate = .ok () := by
  obtain ⟨entry, inside, rfl⟩ := List.mem_map.mp listed
  exact store.valid entry.1 entry.2 (mem_toList_iff_getElem?_eq_some.mp inside)

/-- The records of a store have different keys. -/
theorem records_distinct :
    (keyedRecords store.records).Pairwise fun a b => ¬ FactKey.cmp a.1 b.1 = .eq := by
  rw [keyedRecords_records]
  exact distinct_keys_toList

/-- Its records alone make up the store. -/
theorem insertMany_records :
    (∅ : ActiveFacts).insertMany (keyedRecords store.records) = store.active := by
  refine ext_getElem? fun key => ?_
  cases found : store.active[key]? with
  | some held =>
    refine getElem?_insertMany_list_of_mem ReflCmp.compare_self
      records_distinct ?_
    rw [keyedRecords_records]
    exact mem_toList_iff_getElem?_eq_some.mpr found
  | none =>
    cases rebuilt : ((∅ : ActiveFacts).insertMany (keyedRecords store.records))[key]? with
    | none => rfl
    | some held =>
      rcases getElem?_insertMany_cases rebuilt with ⟨listed, same⟩ | earlier
      · obtain ⟨entry, inside, rfl⟩ := List.mem_map.mp listed
        have there := mem_toList_iff_getElem?_eq_some.mp inside
        rw [← store.keyed entry.1 entry.2 there, same, found] at there
        cases there
      · simp at earlier

/-- A valid record of a key the store does not hold is inserted, within the bound. -/
theorem record_fresh {fresh} (valid : fresh.validate = .ok ())
    (absent : store.active[fresh.factKey]? = none) (room : store.active.size < maxRuntimeFacts) :
    ∃ next, store.record fresh = .ok (.inserted, next) ∧
      next.active = store.active.insert fresh.factKey fresh := by
  unfold record
  split
  · rename_i error refused
    rw [valid] at refused
    cases refused
  split
  · rename_i existing found
    rw [absent] at found
    cases found
  · rw [dif_neg (by omega)]
    exact ⟨_, rfl, rfl⟩

end RuntimeFactStore

end RuntimeFacts
