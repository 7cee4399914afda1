import ActingCommand.IntervalUnion
import ActingCommand.Policy.Starts

/-!
# Blackouts

A blackout is a union of intervals of three sources: the host's list, the instance's own list and
the catalog's maintenance events. Both lists hold weekly and one-time entries; an event repeats on
its schedule, each occurrence clipped by the event's validity.
-/

namespace Policy

open Machine Nearest IntervalUnion

/-- When an entry of a list covers, within the bounds of the configuration. -/
inductive BlackoutWindow
  | weekly (weekdays : List Nat) (utcOffsetMinutes : Int) (startMinuteOfDay endMinuteOfDay : Nat)
      (minutes : startMinuteOfDay ≤ 1439 ∧ endMinuteOfDay ≤ 1439)
  | once (fromUnixMs untilUnixMs : Nat) (nonempty : fromUnixMs < untilUnixMs)
      (fits : untilUnixMs ≤ u64Max)

structure BlackoutEntry where
  id : String
  window : BlackoutWindow

inductive BlackoutSource
  | host
  | ofInstance
  | catalog
deriving DecidableEq

def BlackoutSource.rank : BlackoutSource → Nat
  | host => 0
  | ofInstance => 1
  | catalog => 2

inductive TimelineEventKind
  | reset
  | maintenance
  | activity
  | deadline
deriving DecidableEq

structure TimelineValidity where
  fromUnixMs : Nat
  untilUnixMs : Option Nat
  fits : fromUnixMs ≤ u64Max

structure TimelineEvent where
  id : String
  scope : ScopeSelector
  eventKind : TimelineEventKind
  schedule : ClockSchedule
  durationMs : Nat
  validity : Option TimelineValidity

structure BlackoutSources where
  host : List BlackoutEntry
  instances : Std.ExtTreeMap String (List BlackoutEntry)
  catalog : List TimelineEvent

structure Blackout where
  id : String
  source : BlackoutSource
  startUnixMs : Nat
  endUnixMs : Nat
deriving DecidableEq

structure Interval where
  start : Nat
  stop : Nat
  source : BlackoutSource
  id : String

def maxUnionSteps : Nat := 1024

/-- The order in which the last interval is reported: the latest end, the first source, the least
id. -/
def Interval.order (left right : Interval) : Ordering :=
  (compare left.stop right.stop).then
    ((compare right.source.rank left.source.rank).then (compare right.id left.id))

def Interval.later (left right : Interval) : Interval :=
  if left.order right = .gt then left else right

def lastEnding : List Interval → Option Interval
  | [] => none
  | first :: rest => some (rest.foldl Interval.later first)

/-! ## Weekly and one-time entries -/

structure Weekly where
  offsetMs : Int
  startMs : Int
  lengthMs : Int

namespace Weekly

def new (utcOffsetMinutes : Int) (startMinuteOfDay endMinuteOfDay : Nat) : Weekly where
  offsetMs := utcOffsetMinutes * minuteMs
  startMs := startMinuteOfDay * minuteMs
  -- An end at or before the start crosses midnight; an end equal to the start is one day.
  lengthMs :=
    if startMinuteOfDay < endMinuteOfDay then (endMinuteOfDay - startMinuteOfDay) * minuteMs
    else dayMs - (startMinuteOfDay - endMinuteOfDay) * minuteMs

variable (weekly : Weekly)

def localDay (instant : Nat) : Int := (instant + weekly.offsetMs) / dayMs

def start (day : Int) : Int := weeklyStart weekly.startMs weekly.offsetMs day

/-- A start before the epoch is clipped to it. -/
def unix (value : Int) : Evaluated Nat :=
  orOverflow (toU64 (max value 0)) "a weekly blackout overflowed"

def occurrence (day : Int) : Evaluated (Nat × Nat) := do
  let start ← unix (weekly.start day)
  let stop ← unix (weekly.start day + weekly.lengthMs)
  pure (start, stop)

/-- The occurrence of a day, if it covers and ends after the one found so far. -/
def coveringOn (weekdays : List Nat) (instant : Nat) (found : Option (Nat × Nat)) (day : Int) :
    Evaluated (Option (Nat × Nat)) :=
  if (weekday day).toNat ∈ weekdays then do
    let (start, stop) ← weekly.occurrence day
    pure (if start ≤ instant ∧ instant < stop ∧ found.all (·.2 < stop) then some (start, stop)
      else found)
  else pure found

/-- The first start after an instant on one of some days. -/
def startAfter (weekly : Weekly) (weekdays : List Nat) (after : Nat) :
    List Int → Evaluated (Option Nat)
  | [] => pure none
  | day :: rest =>
    if (weekday day).toNat ∈ weekdays then do
      let (start, _) ← weekly.occurrence day
      if after < start then pure (some start) else startAfter weekly weekdays after rest
    else startAfter weekly weekdays after rest

end Weekly

def entryCovering (window : BlackoutWindow) (instant : Nat) : Evaluated (Option (Nat × Nat)) :=
  match window with
  | .once fromUnixMs untilUnixMs _ _ =>
    pure (if fromUnixMs ≤ instant ∧ instant < untilUnixMs then some (fromUnixMs, untilUnixMs)
      else none)
  | .weekly weekdays utcOffsetMinutes startMinuteOfDay endMinuteOfDay _ => do
    let weekly := Weekly.new utcOffsetMinutes startMinuteOfDay endMinuteOfDay
    let day := weekly.localDay instant
    -- An occurrence lasts at most one day.
    let found ← weekly.coveringOn weekdays instant none (day - 1)
    weekly.coveringOn weekdays instant found day

def entryStartAfter (window : BlackoutWindow) (after : Nat) : Evaluated (Option Nat) :=
  match window with
  | .once fromUnixMs _ _ _ => pure (if after < fromUnixMs then some fromUnixMs else none)
  | .weekly weekdays utcOffsetMinutes startMinuteOfDay endMinuteOfDay _ =>
    let weekly := Weekly.new utcOffsetMinutes startMinuteOfDay endMinuteOfDay
    weekly.startAfter weekdays after (searchedDays (weekly.localDay after))

/-! ## Maintenance events -/

lemma moved_fits {instant : Nat} {monotonic : Int} (inside : instant ≤ u64Max)
    (fits : monotonic ≤ u64Max) : instant ≤ u64Max ∧ monotonic.toNat ≤ u64Max :=
  ⟨inside, by omega⟩

/-- An evaluation's time moved to an instant, both clocks by the same step. -/
def moved (time : EvaluationTime) (instant : Nat) : Option EvaluationTime :=
  let monotonic : Int := time.monotonicMs + (instant - time.unixMs)
  if h : instant ≤ u64Max ∧ 0 ≤ monotonic ∧ monotonic ≤ u64Max then
    some ⟨instant, monotonic.toNat, moved_fits h.1 h.2.2⟩
  else none

namespace TimelineEvent

variable (event : TimelineEvent)

def explicitValidity : Evaluated TimelineValidity :=
  let id := event.id
  Call.okOr event.validity
    (PolicyEvaluationError.invalid s!"maintenance event '{id}' requires explicit V2 validity")

variable (validity : TimelineValidity)

/-- The clipped interval of an occurrence, or none when the clip leaves nothing. -/
def clipped (occurrence : Nat) : Evaluated (Option (Nat × Nat)) := do
  let id := event.id
  let ends ← orOverflow (checkedAdd occurrence event.durationMs)
    s!"maintenance event '{id}' duration overflowed"
  let start := max occurrence validity.fromUnixMs
  let stop := validity.untilUnixMs.elim ends (min ends)
  pure (if start < stop then some (start, stop) else none)

/-- The clipped interval of an occurrence there may be. -/
def clippedSome : Option Nat → Evaluated (Option (Nat × Nat))
  | none => pure none
  | some occurrence => event.clipped validity occurrence

/-- The clipped interval of the latest occurrence at or before an instant. -/
def interval (time : EvaluationTime) (instant : Nat) : Evaluated (Option (Nat × Nat)) := do
  let validity ← event.explicitValidity
  if event.durationMs = 0 ∨ validity.untilUnixMs.any (· ≤ instant) then pure none
  else
    match moved time instant with
    | none => pure none
    | some there => do
      let (latest, _) ← scheduleOccurrences event.schedule there
      event.clippedSome validity latest

def startAfter (time : EvaluationTime) (after : Nat) : Evaluated (Option Nat) := do
  let validity ← event.explicitValidity
  if event.durationMs = 0 then pure none
  else
    match (checkedAdd after 1).map (max · validity.fromUnixMs) with
    | none => pure none
    | some probe =>
      if validity.untilUnixMs.any (· ≤ probe) then pure none
      else
        match moved time probe with
        | none => pure none
        | some there => do
          let (latest, next) ← scheduleOccurrences event.schedule there
          -- The latest occurrence, clipped, may still begin after: at the validity's start, or
          -- exactly at the probe.
          let early ← event.clippedSome validity latest
          match (early.map Prod.fst).filter (after < ·) with
          | some start => pure (some start)
          | none => do
            let later ← event.clippedSome validity next
            pure (later.map Prod.fst)

end TimelineEvent

/-! ## The union -/

section Union

variable (sources : BlackoutSources) (snapshot : InstanceSnapshot) (time : EvaluationTime)

/-- The host's entries, then the instance's own. -/
def configured : List (BlackoutSource × BlackoutEntry) :=
  sources.host.map (BlackoutSource.host, ·) ++
    (sources.instances.getD snapshot.instanceId []).map (BlackoutSource.ofInstance, ·)

def maintenance : List TimelineEvent :=
  sources.catalog.filter fun event =>
    event.eventKind = .maintenance ∧ scopeMatchesInstance event.scope snapshot

/-- What each member gives, in order. -/
def gathered {α β : Type} (give : α → Evaluated (Option β)) : List α → Evaluated (List β)
  | [] => pure []
  | member :: rest => do
    let given ← give member
    let others ← gathered give rest
    pure (given.toList ++ others)

variable (reached instant : Nat)

def coveringEntry (entry : BlackoutSource × BlackoutEntry) : Evaluated (Option Interval) := do
  let found ← entryCovering entry.2.window instant
  pure (found.map fun span => ⟨span.1, span.2, entry.1, entry.2.id⟩)

def coveringEvent (event : TimelineEvent) : Evaluated (Option Interval) := do
  let found ← event.interval time instant
  let around := found.filter fun span => span.1 ≤ instant ∧ instant < span.2
  pure (around.map fun span => ⟨span.1, span.2, .catalog, event.id⟩)

def covering : Evaluated (List Interval) := do
  let entries ← gathered (coveringEntry instant) (configured sources snapshot)
  let events ← gathered (coveringEvent time instant) (maintenance sources snapshot)
  pure (entries ++ events)

def unionEnd : Evaluated Nat :=
  followEnd Interval.stop (covering sources snapshot time) maxUnionSteps reached

def unionStart : Evaluated Nat :=
  followStart Interval.start (covering sources snapshot time) maxUnionSteps reached

def earliestStartAfter (after : Nat) : Evaluated (Option Nat) := do
  let entries ← earliestFrom (fun entry => entryStartAfter entry.2.window after)
    (configured sources snapshot) none
  earliestFrom (fun event => event.startAfter time after) (maintenance sources snapshot) entries

def blackoutAt : Evaluated (Option Blackout) := do
  let found ← covering sources snapshot time time.unixMs
  match lastEnding found with
  | none => pure none
  | some reported => do
    let firstStart := ((found.map Interval.start).min?).getD reported.start
    let start ← unionStart sources snapshot time firstStart
    let stop ← unionEnd sources snapshot time reported.stop
    pure (some ⟨reported.id, reported.source, start, stop⟩)

def nextBlackoutStart (bound : Nat) : Evaluated (Option Blackout) := do
  let current ← blackoutAt sources snapshot time
  let after := current.elim time.unixMs Blackout.endUnixMs
  if bound ≤ after then pure none
  else
    let earliest ← earliestStartAfter sources snapshot time after
    match earliest.filter (· ≤ bound) with
    | none => pure none
    | some start => do
      let found ← covering sources snapshot time start
      let reported ← Call.okOr (lastEnding found)
        (PolicyEvaluationError.invalid "a blackout start is covered by no interval")
      let stop ← unionEnd sources snapshot time reported.stop
      pure (some ⟨reported.id, reported.source, start, stop⟩)

end Union

end Policy
