import ActingCommand.RuntimeFacts.SnapshotSet

/-!
# The host's ledger of runtime facts

Every change of the store is appended to the ledger before it enters memory, a seal
appends the parts of a snapshot set one by one, and a start rebuilds the store from the
newest complete set and the changes behind it. An append that the ledger's storage
refuses ends the process and is not a step of a run.
-/

namespace RuntimeFacts

open Machine EventLog List

inductive EventPayload
  | factRecorded (record : RuntimeFactRecord)
  | factInvalidated (invalidation : RuntimeFactInvalidation)
  | factSnapshot (snapshot : RuntimeFactSnapshot)
  | factSnapshotSetSkipped (skipped : SkippedRuntimeFactSnapshotSet)
  | other
deriving DecidableEq

/-- The check a payload passes before the ledger takes its event in or hands it out. -/
def EventPayload.validate : EventPayload → Except SanitizationError Unit
  | factRecorded record => record.validate
  | factInvalidated invalidation => invalidation.validate
  | factSnapshot snapshot => snapshot.validate
  | factSnapshotSetSkipped _ | other => .ok ()

structure PersistedEvent where
  timestampUnixMs : Nat
  originModule : OriginModule
  payload : EventPayload
deriving DecidableEq

/-- The events in order; the first one has sequence 1. -/
abbrev GlobalLedger := List PersistedEvent

def GlobalLedger.latestSequence (ledger : GlobalLedger) : Nat := ledger.length

inductive HostError
  | rejected (error : RuntimeFactError)
  | invalidRequest (code : SanitizationCode)
  | instanceUnknown
  | desync (error : RuntimeFactError)
  | snapshotRefused (code : SanitizationCode)
  | replayFailed (sequence : Nat) (detail : String)
deriving DecidableEq

/-- The live store, whether it changed since the last seal, and the parts a seal that holds the
write gate has still to append. -/
structure Host where
  ledger : GlobalLedger
  store : RuntimeFactStore
  dirty : Bool
  sealing : Option (List RuntimeFactSnapshot)
deriving DecidableEq

def Host.initial : Host := ⟨[], .new, false, none⟩

/-! ## Changes -/

/-- The store's acceptance rules without a change; `some` is the answer for an identical record. -/
def precheckRuntimeFact (store : RuntimeFactStore) (record : RuntimeFactRecord) :
    Except HostError (Option RuntimeFactChange) :=
  match record.validate with
  | .error error => .error (.rejected (.invalid error.code))
  | .ok () =>
    match store.get record.scope record.key with
    | some existing =>
      if existing = record then .ok (some .unchanged)
      else if existing.observedAtUnixMs ≥ record.observedAtUnixMs then
        .error (.rejected (.stale existing.observedAtUnixMs))
      else .ok none
    | none =>
      if store.active.size ≥ maxRuntimeFacts then
        .error (.rejected (.capacityExceeded maxRuntimeFacts))
      else .ok none

def checkScope (registered : InstanceId → Bool) : RuntimeFactScope → Except HostError Unit
  | .runtime => .ok ()
  | .instance instanceId => if registered instanceId then .ok () else .error .instanceUnknown

def factEvent (atUnixMs : Nat) (payload : EventPayload) : PersistedEvent :=
  ⟨atUnixMs, .runtimeFacts, payload⟩

section Changes

variable (registered : InstanceId → Bool)

/-- Appends the record's event, then accepts the record into memory. -/
def Host.recordRuntimeFact (host : Host) (record : RuntimeFactRecord) (atUnixMs : Nat) :
    Except HostError (RuntimeFactChange × Host) := do
  match ← precheckRuntimeFact host.store record with
  | some answer => pure (answer, host)
  | none =>
    checkScope registered record.scope
    let ledger := host.ledger ++ [factEvent atUnixMs (.factRecorded record)]
    match host.store.record record with
    | .error error => .error (.desync error)
    | .ok (change, store) =>
      pure (change, { host with ledger := ledger, store := store, dirty := true })

/-- Appends the drop's event, then drops the record from memory. -/
def Host.invalidateRuntimeFact (host : Host) (scope : RuntimeFactScope) (key : String)
    (reason : RuntimeFactInvalidationReason) (atUnixMs : Nat) :
    Except HostError (RuntimeFactInvalidation × Host) := do
  Call.failIf (host.store.get scope key = none) (HostError.rejected .missing)
  let invalidation : RuntimeFactInvalidation := ⟨scope, key, reason, atUnixMs⟩
  match invalidation.validate with
  | .error error => .error (.invalidRequest error.code)
  | .ok () =>
    checkScope registered scope
    let ledger := host.ledger ++ [factEvent atUnixMs (.factInvalidated invalidation)]
    match host.store.invalidate scope key reason atUnixMs with
    | .error error => .error (.desync error)
    | .ok (invalidation, store) =>
      pure (invalidation, { host with ledger := ledger, store := store, dirty := true })

end Changes

/-! ## Seals -/

def validateParts (encoding : Encoding) : List RuntimeFactSnapshot → Except HostError Unit
  | [] => pure ()
  | part :: rest =>
    match part.validateForAppend encoding with
    | .error error => .error (.snapshotRefused error.code)
    | .ok () => validateParts encoding rest

variable (encoding : Encoding) (entry : Nat × PersistedEvent) (ledger : GlobalLedger)

/-- The parts of a seal, checked before the first of them is appended; none of a store that did not
change. -/
def Host.sealedParts (host : Host) (takenAtUnixMs : Nat) :
    Except HostError (Option (List RuntimeFactSnapshot)) := do
  if !host.dirty then pure none
  else
    let sealed := host.store.snapshot host.ledger.latestSequence takenAtUnixMs
    match splitRuntimeFactSnapshot encoding sealed with
    | .error code => .error (.snapshotRefused code)
    | .ok parts =>
      validateParts encoding parts
      pure (some parts)

/-! ## Recovery -/

def EventPayload.isFactSnapshot : EventPayload → Bool
  | factSnapshot _ => true
  | _ => false

def EventPayload.isRuntimeFact : EventPayload → Bool
  | factRecorded _ | factInvalidated _ | factSnapshot _ => true
  | factSnapshotSetSkipped _ | other => false

/-- The event is a snapshot part. -/
def selectSnapshots : Bool := entry.2.payload.isFactSnapshot

/-- The event is one of the runtime-facts module, at or after a sequence. -/
def selectFactEvents (fromSequence : Nat) (entry : Nat × PersistedEvent) : Bool :=
  fromSequence ≤ entry.1 && entry.2.originModule = .runtimeFacts

def runtimeFactSnapshotSearchWindow : Nat := 1

def runtimeFactSnapshotPageEvents : PageSize := ⟨16, by decide⟩

def replayFailed (sequence : Nat) (detail : String) : HostError := .replayFailed sequence detail

/-- The part of a snapshot event, checked; behind a part other than the first the next window ends
at the set's own position. -/
def snapshotPart : Except HostError SequencedPart :=
  match entry.2.payload with
  | .factSnapshot snapshot =>
    match snapshot.validate with
    | .error error => .error (replayFailed entry.1 (RuntimeFactError.invalid error.code).text)
    | .ok () => .ok (entry.1, snapshot)
  | _ => .error (replayFailed entry.1 "payload is not runtime.fact_snapshot")

/-- The snapshot parts at or below a position, newest first. -/
def snapshotEventsNewestFirst : Source (Backwards PersistedEvent) HostError SequencedPart where
  next read :=
    match read.next ledger selectSnapshots runtimeFactSnapshotPageEvents with
    | none => .ok none
    | some (entry, rest) =>
      match snapshotPart entry with
      | .error error => .error error
      | .ok part =>
        .ok (some (part,
          { rest with floor := if part.2.part > 1 then part.2.snapshotId else 0 }))
  size read := (read.remaining ledger selectSnapshots).length
  smaller {read rest part} answer := by
    split at answer
    · cases answer
    rename_i entry last found
    split at answer
    · cases answer
    simp only [Except.ok.injEq, Option.some.injEq, Prod.mk.injEq] at answer
    obtain ⟨rfl, rfl⟩ := answer
    rw [Backwards.next_eq_some found, length_append, length_singleton]
    exact Nat.lt_succ_self _

/-- The search starts at the tail, with a window of one event. -/
def newestFirst (latestSequence : Nat) : Backwards PersistedEvent :=
  ⟨latestSequence, runtimeFactSnapshotSearchWindow, 0, [], Nat.one_pos⟩

def recordAll (sequence : Nat) : List RuntimeFactRecord → RuntimeFactStore →
    Except HostError RuntimeFactStore
  | [], store => pure store
  | record :: rest, store =>
    match store.record record with
    | .error error => .error (replayFailed sequence error.text)
    | .ok (_, store) => recordAll sequence rest store

def joinParts : List SequencedPart → RuntimeFactStore → Except HostError RuntimeFactStore
  | [], store => pure store
  | (sequence, part) :: rest, store => do
    let store ← recordAll sequence part.records store
    joinParts rest store

/-- The first part replaces the empty store, and the later parts join it. -/
def replaySet : List SequencedPart → Except HostError RuntimeFactStore
  | [] => pure .new
  | (sequence, part) :: rest =>
    match RuntimeFactStore.replay part with
    | .error error => .error (replayFailed sequence error.text)
    | .ok store => joinParts rest store

/-- One event of the runtime-facts module behind the set. -/
def replayEvent (store : RuntimeFactStore) (entry : Nat × PersistedEvent) :
    Except HostError RuntimeFactStore :=
  match entry.2.payload with
  | .factRecorded record =>
    match store.record record with
    | .error error => .error (replayFailed entry.1 error.text)
    | .ok (_, store) => .ok store
  | .factInvalidated invalidation =>
    match store.invalidate invalidation.scope invalidation.key invalidation.reason
        invalidation.atUnixMs with
    | .error error => .error (replayFailed entry.1 error.text)
    | .ok (_, store) => .ok store
  -- A part of an incomplete set passed over: the events around it already carry its content.
  | .factSnapshot _ => .ok store
  | _ => .error (replayFailed entry.1 "unexpected event under origin module runtime-facts")

def skippedEvents (nowUnixMs : Nat) (skipped : List SkippedRuntimeFactSnapshotSet) :
    List PersistedEvent :=
  skipped.map fun skipped => ⟨nowUnixMs, .runtime, .factSnapshotSetSkipped skipped⟩

def readPagesAfter (select : Nat × PersistedEvent → Bool) (after through : Nat)
    (pageEvents : PageSize) : List (Nat × PersistedEvent) :=
  if after ≥ through then [] else readPages ledger select through pageEvents after

/-- What a start rebuilds, without an owner takeover: the store, whether it is dirty, and the ledger
with one event for each incomplete set passed over. -/
structure Recovered where
  store : RuntimeFactStore
  dirty : Bool
  ledger : GlobalLedger

/-- Rebuilds the store from the newest complete set and every change behind its last part. -/
def recoverRuntimeFactStore (nowUnixMs : Nat) (pageEvents : PageSize) :
    Except HostError Recovered := do
  let search ← newestCompleteRuntimeFactSnapshotSet (snapshotEventsNewestFirst ledger)
    (newestFirst ledger.latestSequence)
  let ledger := ledger ++ skippedEvents nowUnixMs search.skipped
  let set := search.set.getD []
  let store ← replaySet set
  let fromSequence := set.getLast?.elim 1 fun last => last.1 + 1
  let appended := readPagesAfter ledger (selectFactEvents fromSequence) (fromSequence - 1)
    ledger.latestSequence pageEvents
  let store ← appended.foldlM replayEvent store
  pure ⟨store, false, ledger⟩

/-! ## Runs -/

/-- One step of the host: an event of another module, a change, the begin of a seal, the append of
its next part, its end, and a stop at any point with the start that follows it. -/
inductive Step (encoding : Encoding) (registered : InstanceId → Bool) : Host → Host → Prop
  | other {host : Host} {event : PersistedEvent} (module : event.originModule ≠ .runtimeFacts)
    (payload : event.payload.isRuntimeFact = false) :
    Step encoding registered host { host with ledger := host.ledger ++ [event] }
  | record {host next : Host} {record : RuntimeFactRecord} {atUnixMs : Nat}
    {change : RuntimeFactChange} (free : host.sealing = none)
    (answer : host.recordRuntimeFact registered record atUnixMs = .ok (change, next)) :
    Step encoding registered host next
  | invalidate {host next : Host} {scope : RuntimeFactScope} {key : String}
    {reason : RuntimeFactInvalidationReason} {atUnixMs : Nat}
    {invalidation : RuntimeFactInvalidation} (free : host.sealing = none)
    (answer : host.invalidateRuntimeFact registered scope key reason atUnixMs =
      .ok (invalidation, next)) :
    Step encoding registered host next
  | beginSeal {host : Host} {takenAtUnixMs : Nat} {parts : List RuntimeFactSnapshot}
    (free : host.sealing = none)
    (answer : host.sealedParts encoding takenAtUnixMs = .ok (some parts)) :
    Step encoding registered host { host with sealing := some parts }
  | appendPart {host : Host} {part : RuntimeFactSnapshot} {rest : List RuntimeFactSnapshot}
    {atUnixMs : Nat} (held : host.sealing = some (part :: rest)) :
    Step encoding registered host
      { host with
        ledger := host.ledger ++ [factEvent atUnixMs (.factSnapshot part)]
        sealing := some rest }
  | endSeal {host : Host} (done : host.sealing = some []) :
    Step encoding registered host { host with dirty := false, sealing := none }
  | restart {host : Host} {nowUnixMs : Nat} {pageEvents : PageSize} {recovered : Recovered}
    (answer : recoverRuntimeFactStore host.ledger nowUnixMs pageEvents = .ok recovered) :
    Step encoding registered host
      ⟨recovered.ledger, recovered.store, recovered.dirty, none⟩

abbrev Run (registered : InstanceId → Bool) :=
  Relation.ReflTransGen (Step encoding registered)

end RuntimeFacts
