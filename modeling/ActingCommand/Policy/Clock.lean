import ActingCommand.Call
import ActingCommand.Machine
import ActingCommand.Nearest

/-!
# The clocks of the scheduling catalog

A schedule occurs on its own clock: the monotonic clock for a local one, and Unix time less the
maintenance drift, at an offset from UTC, for a server's and a reveal's. An evaluation reads the
nearest occurrences around its instant, and a walk back lists the newest occurrences a reader
accepts.
-/

namespace Policy

open Machine Nearest List Option Except

/-! ## What evaluations share -/

inductive PolicyEvaluationError
  | overflow (detail : String)
  | invalid (detail : String)
deriving DecidableEq

abbrev Evaluated := Except PolicyEvaluationError

/-- A value in range, or the evaluation's overflow. -/
def orOverflow {α : Type} (value : Option α) (detail : String) : Evaluated α :=
  Call.okOr value (PolicyEvaluationError.overflow detail)

lemma orOverflow_eq_ok_iff {α : Type} {value : Option α} {detail : String} {a : α} :
    orOverflow value detail = .ok a ↔ value = some a := Except.okOr_ok_iff

inductive ScopeSelector
  | ofInstance (instanceId : String)
  | ofServer (serverId : String)
  | ofGame (gameId : String)
deriving DecidableEq

structure InstanceSnapshot where
  instanceId : String
  serverId : String
  gameId : String

def scopeMatchesInstance (scope : ScopeSelector) (snapshot : InstanceSnapshot) : Bool :=
  match scope with
  | .ofInstance instanceId => instanceId = snapshot.instanceId
  | .ofServer serverId => serverId = snapshot.serverId
  | .ofGame gameId => gameId = snapshot.gameId

inductive TaskTerminalState
  | succeeded
  | failed
  | cancelled
deriving DecidableEq

/-- The earlier of two wakes. -/
def minWake : Option Nat → Option Nat → Option Nat
  | some left, some right => some (min left right)
  | some value, none | none, some value => some value
  | none, none => none

lemma minWake_eq_some_iff {left right : Option Nat} {wake : Nat} :
    minWake left right = some wake ↔ (left = some wake ∨ right = some wake) ∧
      (∀ a ∈ left, wake ≤ a) ∧ ∀ b ∈ right, wake ≤ b := by
  cases left <;> cases right <;> simp only [minWake, Option.some.injEq, Option.mem_def,
    reduceCtorEq] <;> grind

/-! ## Schedules -/

structure EvaluationTime where
  unixMs : Nat
  monotonicMs : Nat
  fits : unixMs ≤ u64Max ∧ monotonicMs ≤ u64Max

/-- A reveal's clock reads as a server's. -/
inductive ClockSource
  | onHost
  | server (utcOffsetMinutes dstOffsetMinutes maintenanceDriftMs : Int)
  | reveal (utcOffsetMinutes dstOffsetMinutes maintenanceDriftMs : Int)

/-- When a schedule occurs, within the bounds of the catalog's validation. -/
inductive Recurrence
  | interval (everyMs anchorMs : Nat) (positive : 0 < everyMs) (fits : anchorMs ≤ u64Max)
  | once (atMs : Nat) (fits : atMs ≤ u64Max)
  | daily (minutesOfDay : List Nat) (minutes : ∀ minute ∈ minutesOfDay, minute ≤ 1439)
  | weekly (weekday minuteOfDay : Nat) (day : 1 ≤ weekday ∧ weekday ≤ 7)
      (minute : minuteOfDay ≤ 1439)

structure ClockSchedule where
  clockSource : ClockSource
  recurrence : Recurrence

def dayMs : Int := 86400000

def minuteMs : Int := 60000

/-- The weekday, 1 Monday to 7 Sunday, of a local day counted from the Unix epoch. -/
def weekday (localDay : Int) : Int := (localDay + 3) % 7 + 1

/-- `u64::try_from` of a wider signed value. -/
def toU64 (value : Int) : Option Nat :=
  if 0 ≤ value ∧ value ≤ u64Max then some value.toNat else none

lemma toU64_eq_some_iff {value : Int} {n : Nat} :
    toU64 value = some n ↔ value = n ∧ n ≤ u64Max := by
  unfold toU64
  split <;> simp <;> omega

lemma toU64_eq_none_iff {value : Int} : toU64 value = none ↔ value < 0 ∨ u64Max < value := by
  unfold toU64
  split <;> simp <;> omega

/-- `i16::try_from`. -/
def toI16 (value : Int) : Option Int :=
  if -2 ^ 15 ≤ value ∧ value < 2 ^ 15 then some value else none

structure ClockCoordinate where
  nowMs : Nat
  unixDeltaMs : Int
  utcOffsetMinutes : Int

namespace ClockCoordinate

def drifting (utc dst drift : Int) (time : EvaluationTime) : Evaluated ClockCoordinate := do
  let nowMs ← orOverflow (toU64 (time.unixMs - drift))
    "clock maintenance drift moved the evaluation before the Unix epoch"
  let effectiveOffset ← orOverflow (toI16 (utc + dst)) "clock UTC/DST offset overflowed"
  pure ⟨nowMs, drift, effectiveOffset⟩

def new (source : ClockSource) (time : EvaluationTime) : Evaluated ClockCoordinate :=
  match source with
  | .onHost => pure ⟨time.monotonicMs, time.unixMs - time.monotonicMs, 0⟩
  | .server utc dst drift | .reveal utc dst drift => drifting utc dst drift time

def toUnixMs (clock : ClockCoordinate) (coordinateMs : Nat) : Evaluated Nat :=
  orOverflow (toU64 (coordinateMs + clock.unixDeltaMs))
    "clock occurrence cannot be represented as Unix time"

end ClockCoordinate

open ClockCoordinate

def localToUnix (localMs offsetMs : Int) : Option Nat := toU64 (localMs - offsetMs)

variable (recurrence : Recurrence) (offsetMinutes : Int)

def dailyOccurrences (minutes : List Nat) (now : Nat) : Option Nat × Option Nat :=
  let offsetMs := offsetMinutes * minuteMs
  let localNow := now + offsetMs
  let day := localNow / dayMs
  let currentMinute := localNow % dayMs / minuteMs
  let onDay (day : Int) (minute : Nat) : Int := day * dayMs + minute * minuteMs
  let latestLocal := ((minutes.filter fun minute : Nat =>
    (minute : Int) ≤ currentMinute).max?.map (onDay day)).or
    (minutes.max?.map (onDay (day - 1)))
  let nextLocal := ((minutes.filter fun minute : Nat =>
    currentMinute < (minute : Int)).min?.map (onDay day)).or
    (minutes.min?.map (onDay (day + 1)))
  (latestLocal.bind (localToUnix · offsetMs), nextLocal.bind (localToUnix · offsetMs))

def weeklyOccurrences (targetWeekday minuteOfDay now : Nat) : Option Nat × Option Nat :=
  let offsetMs := offsetMinutes * minuteMs
  let localNow := now + offsetMs
  let day := localNow / dayMs
  let currentMinute := localNow % dayMs / minuteMs
  let since := (weekday day - targetWeekday) % 7
  let daysSince := if since = 0 ∧ currentMinute < minuteOfDay then 7 else since
  let ahead := (targetWeekday - weekday day) % 7
  let daysAhead := if ahead = 0 ∧ minuteOfDay ≤ currentMinute then 7 else ahead
  (localToUnix ((day - daysSince) * dayMs + minuteOfDay * minuteMs) offsetMs,
    localToUnix ((day + daysAhead) * dayMs + minuteOfDay * minuteMs) offsetMs)

/-- The occurrences around the clock's own reading. -/
def coordinateOccurrences (now : Nat) : Option Nat × Option Nat :=
  match recurrence with
  | .interval everyMs anchorMs _ _ =>
    if now < anchorMs then (none, some anchorMs)
    else
      let latest := saturatingAdd anchorMs ((now - anchorMs) / everyMs * everyMs)
      (some latest, checkedAdd latest everyMs)
  | .once atMs _ => if now < atMs then (none, some atMs) else (some atMs, none)
  | .daily minutesOfDay _ => dailyOccurrences offsetMinutes minutesOfDay now
  | .weekly weekday minuteOfDay _ _ => weeklyOccurrences offsetMinutes weekday minuteOfDay now

/-- `Option::map` of a conversion that may fail, with `transpose`. -/
def transposed (convert : Nat → Evaluated Nat) : Option Nat → Evaluated (Option Nat)
  | none => pure none
  | some value => some <$> convert value

section

variable (schedule : ClockSchedule) (time : EvaluationTime)

def scheduleOccurrencesOnClock (clock : ClockCoordinate) : Evaluated (Option Nat × Option Nat) := do
  let occurrences :=
    coordinateOccurrences schedule.recurrence clock.utcOffsetMinutes clock.nowMs
  let latest ← transposed clock.toUnixMs occurrences.1
  let next ← transposed clock.toUnixMs occurrences.2
  pure (latest, next)

def scheduleOccurrences : Evaluated (Option Nat × Option Nat) := do
  let clock ← new schedule.clockSource time
  scheduleOccurrencesOnClock schedule clock

def clockSlotLapseLimit : Nat := 32

/-- The loop of `pastOccurrences`, with room for `room` more. -/
def pastFrom (schedule : ClockSchedule) (clock : ClockCoordinate) (read : Nat → Bool) :
    Nat → Nat → Evaluated (List Nat)
  | 0, _ => pure []
  | room + 1, cursor => do
    let occurrences ← scheduleOccurrencesOnClock schedule { clock with nowMs := cursor }
    match occurrences.1.filter read with
    | none => pure []
    | some occurrence =>
      -- The next cursor is the coordinate one millisecond before this occurrence.
      match toU64 (occurrence - clock.unixDeltaMs) with
      | some (before + 1) => do
        let rest ← pastFrom schedule clock read room before
        pure (occurrence :: rest)
      | _ => pure [occurrence]

def pastOccurrences (read : Nat → Bool) : Evaluated (List Nat) := do
  let clock ← new schedule.clockSource time
  pastFrom schedule clock read clockSlotLapseLimit clock.nowMs

end

/-! ## Where a schedule occurs -/

/-- The instants of a schedule on its own clock, read as an integer. -/
def Recurrence.Occurs (coordinate : Int) : Prop :=
  match recurrence with
  | .interval everyMs anchorMs _ _ => ∃ k : Nat, coordinate = anchorMs + k * everyMs
  | .once atMs _ => coordinate = atMs
  | .daily minutesOfDay _ => ∃ day : Int, ∃ minute ∈ minutesOfDay,
      coordinate + offsetMinutes * minuteMs = day * dayMs + minute * minuteMs
  | .weekly targetWeekday minuteOfDay _ _ => ∃ day : Int, weekday day = targetWeekday ∧
      coordinate + offsetMinutes * minuteMs = day * dayMs + minuteOfDay * minuteMs

/-- The instants of a schedule that its clock can read. -/
def Recurrence.readings : Set Nat :=
  {c | c ≤ u64Max ∧ recurrence.Occurs offsetMinutes c}

section Local

variable {L : Set Int} {offset : Int} {now : Nat} {x : Option Int}

lemma isLatest_localToUnix (latest : IsLatest L (now + offset) x) (fits : now ≤ u64Max) :
    IsLatest {c : Nat | c ≤ u64Max ∧ (c : Int) + offset ∈ L} now
      (x.bind (localToUnix · offset)) := by
  have least {v : Int} (greatest : IsLatest L (now + offset) (some v)) {c : Nat}
      (hc : (c : Int) + offset ∈ L) (le : c ≤ now) : c + offset ≤ v :=
    greatest.2 ⟨hc, by omega⟩
  cases x with
  | none =>
    intro c hc
    have := latest _ hc.2
    omega
  | some v =>
    have le : v ≤ now + offset := latest.1.2
    cases unix : localToUnix v offset with
    | none =>
      simp only [bind_some, unix]
      intro c hc
      rcases toU64_eq_none_iff.mp unix with h | h
      · by_contra before
        have := least latest hc.2 (Nat.le_of_not_lt before)
        omega
      · omega
    | some c =>
      simp only [bind_some, unix]
      obtain ⟨value, small⟩ := toU64_eq_some_iff.mp unix
      refine ⟨⟨⟨small, ?_⟩, by omega⟩, fun b hb => ?_⟩
      · rw [← value, Int.sub_add_cancel]
        exact latest.1.1
      · have := least latest hb.1.2 hb.2
        omega

lemma isNext_localToUnix (next : IsNext L (now + offset) x) :
    IsNext {c : Nat | c ≤ u64Max ∧ (c : Int) + offset ∈ L} now
      (x.bind (localToUnix · offset)) := by
  cases x with
  | none =>
    intro c hc
    have := next _ hc.2
    omega
  | some v =>
    have lt : now + offset < v := next.1.2
    have least {c : Nat} (hc : (c : Int) + offset ∈ L) (h : now < c) : v ≤ c + offset :=
      next.2 ⟨hc, by omega⟩
    cases unix : localToUnix v offset with
    | none =>
      simp only [bind_some, unix]
      intro c hc
      by_contra after
      have := least hc.2 (Nat.lt_of_not_le after)
      have := hc.1
      rcases toU64_eq_none_iff.mp unix with h | h <;> omega
    | some c =>
      simp only [bind_some, unix]
      obtain ⟨value, small⟩ := toU64_eq_some_iff.mp unix
      refine ⟨⟨⟨small, ?_⟩, by omega⟩, fun b hb => ?_⟩
      · rw [← value, Int.sub_add_cancel]
        exact next.1.1
      · have := least hb.1.2 hb.2
        omega

/-- On a local day of its own, a minute comes no later than the current one. -/
theorem onDay_le_iff {localNow day : Int} {minute : Nat} (h : minute ≤ 1439) :
    day * dayMs + minute * minuteMs ≤ localNow ↔
      day < localNow / dayMs ∨ day = localNow / dayMs ∧ minute ≤ localNow % dayMs / minuteMs := by
  simp only [dayMs, minuteMs]
  omega

lemma isLatest_daily {minutes : List Nat} (h : ∀ minute ∈ minutes, minute ≤ 1439) (localNow : Int) :
    IsLatest {v | ∃ day : Int, ∃ minute ∈ minutes, v = day * dayMs + minute * minuteMs} localNow
      (((minutes.filter fun minute : Nat => (minute : Int) ≤ localNow % dayMs / minuteMs).max?.map
        fun minute : Nat => localNow / dayMs * dayMs + minute * minuteMs).or
        (minutes.max?.map fun minute : Nat =>
          (localNow / dayMs - 1) * dayMs + minute * minuteMs)) := by
  cases found : (minutes.filter fun minute : Nat =>
      (minute : Int) ≤ localNow % dayMs / minuteMs).max? with
  | some minute =>
    obtain ⟨listed, greatest⟩ := max?_eq_some_iff.mp found
    simp only [mem_filter, decide_eq_true_eq] at listed greatest
    refine ⟨⟨⟨_, minute, listed.1, rfl⟩, ?_⟩, ?_⟩
    · exact (onDay_le_iff (h _ listed.1)).mpr (Or.inr ⟨rfl, listed.2⟩)
    rintro v ⟨⟨day, other, mem, rfl⟩, le⟩
    have small := h other mem
    rcases (onDay_le_iff small).mp le with earlier | ⟨rfl, before⟩
    · simp only [dayMs, minuteMs] at earlier ⊢
      omega
    have := greatest other ⟨mem, before⟩
    simp only [minuteMs]
    omega
  | none =>
    have later : ∀ minute ∈ minutes, localNow % dayMs / minuteMs < (minute : Int) := by
      simpa [max?_eq_none_iff, filter_eq_nil_iff] using found
    cases any : minutes.max? with
    | some minute =>
      obtain ⟨listed, greatest⟩ := max?_eq_some_iff.mp any
      refine ⟨⟨⟨_, minute, listed, rfl⟩, ?_⟩, ?_⟩
      · exact (onDay_le_iff (h _ listed)).mpr (Or.inl (by omega))
      rintro v ⟨⟨day, other, mem, rfl⟩, le⟩
      have := greatest other mem
      rcases (onDay_le_iff (h other mem)).mp le with earlier | ⟨-, before⟩
      · simp only [dayMs, minuteMs] at earlier ⊢
        omega
      · exact absurd before (not_le_of_gt (later other mem))
    | none =>
      obtain rfl := max?_eq_none_iff.mp any
      rintro v ⟨day, other, mem, -⟩
      cases mem

lemma isNext_daily {minutes : List Nat} (h : ∀ minute ∈ minutes, minute ≤ 1439) (localNow : Int) :
    IsNext {v | ∃ day : Int, ∃ minute ∈ minutes, v = day * dayMs + minute * minuteMs} localNow
      (((minutes.filter fun minute : Nat => localNow % dayMs / minuteMs < (minute : Int)).min?.map
        fun minute : Nat => localNow / dayMs * dayMs + minute * minuteMs).or
        (minutes.min?.map fun minute : Nat =>
          (localNow / dayMs + 1) * dayMs + minute * minuteMs)) := by
  have after {day : Int} {minute : Nat} (small : minute ≤ 1439) :
      localNow < day * dayMs + minute * minuteMs ↔ localNow / dayMs < day ∨
        day = localNow / dayMs ∧ localNow % dayMs / minuteMs < minute := by
    rw [← not_le, onDay_le_iff small]
    omega
  cases found : (minutes.filter fun minute : Nat =>
      localNow % dayMs / minuteMs < (minute : Int)).min? with
  | some minute =>
    obtain ⟨listed, least⟩ := min?_eq_some_iff.mp found
    simp only [mem_filter, decide_eq_true_eq] at listed least
    refine ⟨⟨⟨_, minute, listed.1, rfl⟩, ?_⟩, ?_⟩
    · exact (after (h _ listed.1)).mpr (Or.inr ⟨rfl, listed.2⟩)
    rintro v ⟨⟨day, other, mem, rfl⟩, lt⟩
    have small := h minute listed.1
    rcases (after (h other mem)).mp lt with later | ⟨rfl, behind⟩
    · simp only [dayMs, minuteMs] at later ⊢
      omega
    have := least other ⟨mem, behind⟩
    simp only [minuteMs]
    omega
  | none =>
    have earlier : ∀ minute ∈ minutes, (minute : Int) ≤ localNow % dayMs / minuteMs := by
      simpa [min?_eq_none_iff, filter_eq_nil_iff] using found
    cases any : minutes.min? with
    | some minute =>
      obtain ⟨listed, least⟩ := min?_eq_some_iff.mp any
      refine ⟨⟨⟨_, minute, listed, rfl⟩, ?_⟩, ?_⟩
      · exact (after (h _ listed)).mpr (Or.inl (by omega))
      rintro v ⟨⟨day, other, mem, rfl⟩, lt⟩
      have := least other mem
      rcases (after (h other mem)).mp lt with later | ⟨-, behind⟩
      · simp only [dayMs, minuteMs] at later ⊢
        omega
      · exact absurd behind (not_lt_of_ge (earlier other mem))
    | none =>
      obtain rfl := min?_eq_none_iff.mp any
      rintro v ⟨day, other, mem, -⟩
      cases mem

variable {target minute : Nat} (day : 1 ≤ target ∧ target ≤ 7) (h : minute ≤ 1439)
variable (localNow : Int)

include day h

lemma isLatest_weekly :
    IsLatest {v | ∃ day : Int, weekday day = target ∧ v = day * dayMs + minute * minuteMs} localNow
      (some ((localNow / dayMs - if (weekday (localNow / dayMs) - target) % 7 = 0 ∧
          localNow % dayMs / minuteMs < minute then 7
        else (weekday (localNow / dayMs) - target) % 7) * dayMs + minute * minuteMs)) := by
  have since : ∀ day', weekday day' = target → (day' < localNow / dayMs ∨
      day' = localNow / dayMs ∧ (minute : Int) ≤ localNow % dayMs / minuteMs) →
      day' ≤ localNow / dayMs - if (weekday (localNow / dayMs) - target) % 7 = 0 ∧
        localNow % dayMs / minuteMs < minute then 7
      else (weekday (localNow / dayMs) - target) % 7 := by
    intro day' same before
    simp only [weekday] at same ⊢
    split_ifs <;> omega
  refine ⟨⟨⟨_, ?_, rfl⟩, (onDay_le_iff h).mpr ?_⟩, ?_⟩
  · simp only [weekday]
    split_ifs <;> omega
  · simp only [weekday]
    split_ifs <;> omega
  rintro v ⟨⟨day', same, rfl⟩, le⟩
  have := since day' same ((onDay_le_iff h).mp le)
  simp only [dayMs] at this ⊢
  omega

lemma isNext_weekly :
    IsNext {v | ∃ day : Int, weekday day = target ∧ v = day * dayMs + minute * minuteMs} localNow
      (some ((localNow / dayMs + if (target - weekday (localNow / dayMs)) % 7 = 0 ∧
          minute ≤ localNow % dayMs / minuteMs then 7
        else (target - weekday (localNow / dayMs)) % 7) * dayMs + minute * minuteMs)) := by
  have ahead : ∀ day', weekday day' = target → ¬ (day' < localNow / dayMs ∨
      day' = localNow / dayMs ∧ (minute : Int) ≤ localNow % dayMs / minuteMs) →
      (localNow / dayMs + if (target - weekday (localNow / dayMs)) % 7 = 0 ∧
        minute ≤ localNow % dayMs / minuteMs then 7
      else (target - weekday (localNow / dayMs)) % 7) ≤ day' := by
    intro day' same behind
    simp only [weekday] at same ⊢
    split_ifs <;> omega
  refine ⟨⟨⟨_, ?_, rfl⟩, not_le.mp fun le => ?_⟩, ?_⟩
  · simp only [weekday]
    split_ifs <;> omega
  · have := (onDay_le_iff h).mp le
    simp only [weekday] at this
    split_ifs at this <;> omega
  rintro v ⟨⟨day', same, rfl⟩, lt⟩
  have := ahead day' same (mt (onDay_le_iff h).mpr (not_le_of_gt lt))
  simp only [dayMs] at this ⊢
  omega

end Local

/-- The occurrences around a reading are the nearest of those the clock can read. -/
theorem coordinateOccurrences_nearest (offset : Int) {now : Nat}
    (fits : now ≤ u64Max) :
    IsLatest (recurrence.readings offset) now (coordinateOccurrences recurrence offset now).1 ∧
      IsNext (recurrence.readings offset) now (coordinateOccurrences recurrence offset now).2 := by
  cases recurrence with
  | interval everyMs anchorMs positive small =>
    have from_anchor {c : Nat} (hc : c ∈ (Recurrence.interval everyMs anchorMs positive
        small).readings offset) : ∃ k, c = anchorMs + k * everyMs := by
      obtain ⟨-, k, same⟩ := hc
      exact ⟨k, by exact_mod_cast same⟩
    have occurs {k : Nat} (inside : anchorMs + k * everyMs ≤ u64Max) :
        anchorMs + k * everyMs ∈ (Recurrence.interval everyMs anchorMs positive small).readings
          offset := ⟨inside, k, by push_cast; rfl⟩
    simp only [coordinateOccurrences]
    split
    · rename_i before
      refine ⟨fun c hc => ?_, ⟨by simpa using @occurs 0 (by simpa using small), before⟩, ?_⟩
      · obtain ⟨k, rfl⟩ := from_anchor hc
        omega
      rintro c ⟨hc, -⟩
      obtain ⟨k, rfl⟩ := from_anchor hc
      omega
    rename_i after
    have le := Nat.div_mul_le_self (now - anchorMs) everyMs
    have latest : saturatingAdd anchorMs ((now - anchorMs) / everyMs * everyMs) =
        anchorMs + (now - anchorMs) / everyMs * everyMs := min_eq_left (by omega)
    have upto {k : Nat} : anchorMs + k * everyMs ≤ now ↔ k ≤ (now - anchorMs) / everyMs := by
      rw [Nat.le_div_iff_mul_le positive]
      omega
    have next : anchorMs + ((now - anchorMs) / everyMs + 1) * everyMs =
        anchorMs + (now - anchorMs) / everyMs * everyMs + everyMs := by ring
    rw [latest]
    refine ⟨⟨⟨occurs (by omega), by omega⟩, ?_⟩, ?_⟩
    · rintro c ⟨hc, before⟩
      obtain ⟨k, rfl⟩ := from_anchor hc
      exact Nat.add_le_add_left (Nat.mul_le_mul_right _ (upto.mp before)) _
    have above {k : Nat} (h : now < anchorMs + k * everyMs) :
        anchorMs + (now - anchorMs) / everyMs * everyMs + everyMs ≤ anchorMs + k * everyMs := by
      rw [← next]
      exact Nat.add_le_add_left (Nat.mul_le_mul_right _ (Nat.lt_of_not_le
        (mt upto.mpr (Nat.not_le_of_lt h)))) _
    unfold checkedAdd
    split
    · rename_i inside
      refine ⟨⟨next ▸ occurs (next ▸ inside), ?_⟩, ?_⟩
      · rw [← next]
        exact Nat.lt_of_not_le (mt upto.mp (Nat.not_succ_le_self _))
      rintro c ⟨hc, behind⟩
      obtain ⟨k, rfl⟩ := from_anchor hc
      exact above behind
    · intro c hc
      have inside := hc.1
      obtain ⟨k, rfl⟩ := from_anchor hc
      by_contra behind
      have := above (Nat.lt_of_not_le behind)
      omega
  | once atMs small =>
    have only {c : Nat} : c ∈ (Recurrence.once atMs small).readings offset ↔ c = atMs := by
      constructor
      · exact fun hc => Int.ofNat.inj hc.2
      · rintro rfl
        exact ⟨small, rfl⟩
    simp only [coordinateOccurrences]
    split
    · rename_i before
      refine ⟨fun c hc => only.mp hc ▸ before, ⟨only.mpr rfl, before⟩, ?_⟩
      exact fun c hc => (only.mp hc.1).ge
    rename_i after
    refine ⟨⟨⟨only.mpr rfl, Nat.le_of_not_lt after⟩, fun c hc => (only.mp hc.1).le⟩, ?_⟩
    exact fun c hc => only.mp hc ▸ Nat.le_of_not_lt after
  | daily minutesOfDay minutes =>
    exact ⟨isLatest_localToUnix (isLatest_daily minutes _) fits,
      isNext_localToUnix (isNext_daily minutes _)⟩
  | weekly target minuteOfDay day minute =>
    exact ⟨isLatest_localToUnix (isLatest_weekly day minute _) fits,
      isNext_localToUnix (isNext_weekly day minute _)⟩

/-! ## Unix time -/

def ClockSource.unixDeltaMs (source : ClockSource) (time : EvaluationTime) : Int :=
  match source with
  | .onHost => time.unixMs - time.monotonicMs
  | .server _ _ drift | .reveal _ _ drift => drift

def ClockSource.utcOffsetMinutes : ClockSource → Int
  | .onHost => 0
  | .server utc dst _ | .reveal utc dst _ => utc + dst

/-- The clock reads the evaluation's instant. -/
structure ClockCoordinate.Reads (clock : ClockCoordinate) (source : ClockSource)
    (time : EvaluationTime) : Prop where
  fits : clock.nowMs ≤ u64Max
  delta : clock.unixDeltaMs = source.unixDeltaMs time
  offset : clock.utcOffsetMinutes = source.utcOffsetMinutes
  now : clock.nowMs + clock.unixDeltaMs = time.unixMs

variable {time : EvaluationTime} {clock : ClockCoordinate}

lemma ClockCoordinate.new_reads {source} (made : new source time = .ok clock) :
    clock.Reads source time := by
  have drifts {utc dst drift : Int} (made : drifting utc dst drift time = .ok clock) :
      clock.nowMs ≤ u64Max ∧ clock.unixDeltaMs = drift ∧ clock.utcOffsetMinutes = utc + dst ∧
        clock.nowMs + clock.unixDeltaMs = time.unixMs := by
    simp only [drifting, bind_ok_iff, orOverflow_eq_ok_iff, toI16,
      ite_none_right_eq_some, some.injEq, pure_ok_iff] at made
    obtain ⟨now, narrowed, _, ⟨-, rfl⟩, rfl⟩ := made
    obtain ⟨same, small⟩ := toU64_eq_some_iff.mp narrowed
    exact ⟨small, rfl, rfl, by simp only; omega⟩
  cases source with
  | onHost =>
    obtain rfl := ok.inj made
    exact ⟨time.fits.2, rfl, rfl, by simp only; omega⟩
  | server | reveal =>
    obtain ⟨fits, delta, offset, now⟩ := drifts made
    exact ⟨fits, delta, offset, now⟩

/-- The Unix instants at which a schedule occurs on a clock with this drift and offset. -/
def ClockSchedule.unixOccurrences (schedule : ClockSchedule) (delta offset : Int) : Set Int :=
  {u | ∃ c ∈ schedule.recurrence.readings offset, c + delta = u}

/-- The Unix instants at which a schedule occurs, as an evaluation reads its clock. -/
def ClockSchedule.occurrences (schedule : ClockSchedule) (time : EvaluationTime) : Set Int :=
  schedule.unixOccurrences (schedule.clockSource.unixDeltaMs time)
    schedule.clockSource.utcOffsetMinutes

variable {schedule : ClockSchedule}

lemma ClockCoordinate.Reads.occurrences (reads : clock.Reads schedule.clockSource time) :
    schedule.unixOccurrences clock.unixDeltaMs clock.utcOffsetMinutes =
      schedule.occurrences time := by
  rw [ClockSchedule.occurrences, reads.delta, reads.offset]

lemma transposed_rel {x y} (converted : transposed clock.toUnixMs x = .ok y) :
    Option.Rel (fun (c : Nat) (u : Int) => c + clock.unixDeltaMs = u) x (y.map Nat.cast) := by
  cases x with
  | none =>
    obtain rfl := ok.inj converted
    exact .none
  | some c =>
    simp only [transposed, toUnixMs, map_eq_pure_bind, bind_ok_iff,
      orOverflow_eq_ok_iff, pure_ok_iff] at converted
    obtain ⟨u, narrowed, rfl⟩ := converted
    exact .some (toU64_eq_some_iff.mp narrowed).1

lemma scheduleOccurrencesOnClock_nearest {latest next} (fits : clock.nowMs ≤ u64Max)
    (answer : scheduleOccurrencesOnClock schedule clock = .ok (latest, next)) :
    IsLatest (schedule.unixOccurrences clock.unixDeltaMs clock.utcOffsetMinutes)
        (clock.nowMs + clock.unixDeltaMs) (latest.map Nat.cast) ∧
      IsNext (schedule.unixOccurrences clock.unixDeltaMs clock.utcOffsetMinutes)
        (clock.nowMs + clock.unixDeltaMs) (next.map Nat.cast) := by
  simp only [scheduleOccurrencesOnClock, bind_ok_iff, pure_ok_iff, Prod.mk.injEq] at answer
  obtain ⟨_, first, _, second, rfl, rfl⟩ := answer
  obtain ⟨before, after⟩ :=
    coordinateOccurrences_nearest schedule.recurrence clock.utcOffsetMinutes fits
  have mono {a a' : Nat} {b b' : Int} (h : a + clock.unixDeltaMs = b)
      (h' : a' + clock.unixDeltaMs = b') : a ≤ a' ↔ b ≤ b' := by omega
  exact ⟨before.image mono rfl (transposed_rel first), after.image mono rfl (transposed_rel second)⟩

lemma scheduleOccurrences_nearest {latest next}
    (answer : scheduleOccurrences schedule time = .ok (latest, next)) :
    IsLatest (schedule.occurrences time) time.unixMs (latest.map Nat.cast) ∧
      IsNext (schedule.occurrences time) time.unixMs (next.map Nat.cast) := by
  obtain ⟨clock, made, answer⟩ := bind_ok_iff.mp answer
  have reads := new_reads made
  have near := scheduleOccurrencesOnClock_nearest reads.fits answer
  rwa [reads.occurrences, reads.now] at near

/-- One look back after another, each from the millisecond before the occurrence found. -/
theorem pastFrom_newest {read} {room cursor : Nat} {found}
    (fits : cursor ≤ u64Max) (answer : pastFrom schedule clock read room cursor = .ok found) :
    Newest (schedule.unixOccurrences clock.unixDeltaMs clock.utcOffsetMinutes)
      (cursor + clock.unixDeltaMs) (fun u => read u.toNat) room (found.map Nat.cast) := by
  induction room generalizing cursor found with
  | zero =>
    obtain rfl := ok.inj answer
    exact .zero
  | succ room ih =>
    simp only [pastFrom, bind_ok_iff] at answer
    obtain ⟨⟨latest, next⟩, near, answer⟩ := answer
    have latest := (scheduleOccurrencesOnClock_nearest fits near).1
    split at answer
    · rename_i refused
      obtain rfl := ok.inj answer
      refine .refused latest fun a same => ?_
      obtain ⟨u, rfl, rfl⟩ := map_eq_some_iff.mp same
      simpa using refused
    rename_i occurrence taken
    obtain ⟨rfl, accepted⟩ := filter_eq_some_iff.mp taken
    split at answer
    · rename_i before here
      simp only [bind_ok_iff, pure_ok_iff] at answer
      obtain ⟨rest, walked, rfl⟩ := answer
      obtain ⟨same, small⟩ := toU64_eq_some_iff.mp here
      refine .cons latest accepted (fun b hb => ?_) (ih (by omega) walked)
      omega
    rename_i first
    obtain rfl := ok.inj answer
    refine .single latest accepted ?_
    obtain ⟨c, ⟨small, -⟩, same⟩ := latest.1.1
    have same : c + clock.unixDeltaMs = occurrence := same
    rintro _ ⟨b, -, rfl⟩
    cases c with
    | zero =>
      change (occurrence : Int) ≤ b + clock.unixDeltaMs
      omega
    | succ before => exact absurd (toU64_eq_some_iff.mpr ⟨by omega, small⟩) (first before)

lemma pastOccurrences_newest {read found}
    (answer : pastOccurrences schedule time read = .ok found) :
    Newest (schedule.occurrences time) time.unixMs (fun u => read u.toNat) clockSlotLapseLimit
      (found.map Nat.cast) := by
  obtain ⟨clock, made, answer⟩ := bind_ok_iff.mp answer
  have reads := new_reads made
  have newest := pastFrom_newest reads.fits answer
  rwa [reads.occurrences, reads.now] at newest

/-- Of the occurrences its clock can read, an evaluation reads the latest at or before its
instant and the next one after it, and the walk back lists the newest ones. -/
theorem occurrences_nearest (schedule : ClockSchedule) (time : EvaluationTime) :
    (∀ latest next, scheduleOccurrences schedule time = .ok (latest, next) →
      IsLatest (schedule.occurrences time) time.unixMs (latest.map Nat.cast) ∧
      IsNext (schedule.occurrences time) time.unixMs (next.map Nat.cast) ∧
      ∀ a ∈ latest, ∀ b ∈ next, ∀ u ∈ schedule.occurrences time, ¬ ((a : Int) < u ∧ u < b)) ∧
    ∀ read found, pastOccurrences schedule time read = .ok found →
      Newest (schedule.occurrences time) time.unixMs (fun u => read u.toNat) clockSlotLapseLimit
        (found.map Nat.cast) := by
  refine ⟨fun latest next answer => ?_, fun read found => pastOccurrences_newest⟩
  obtain ⟨before, after⟩ := scheduleOccurrences_nearest answer
  refine ⟨before, after, ?_⟩
  rintro a ha b hb u hu ⟨lt, gt⟩
  rw [mem_def.mp ha] at before
  rw [mem_def.mp hb] at after
  rcases le_latest_or_next_le before after hu with h | h
  · exact not_lt_of_ge h lt
  · exact not_lt_of_ge h gt

namespace Sample

/-- A server's clock an hour behind Unix time. -/
def lateClock : ClockSource := .server 0 0 3600000

/-- Every day at 23:20 of that clock. -/
def lateEvening : ClockSchedule := ⟨lateClock, .daily [1400] (by decide)⟩

/-- The first instant the clock can read. -/
def firstHour : EvaluationTime := ⟨3600000, 0, by decide⟩

/-- Midnight after three days, with two evenings behind it. -/
def thirdMidnight : EvaluationTime := ⟨259200000, 0, by decide⟩

end Sample

open Sample

theorem lateEvening_occurrences_nearest :
    (IsLatest (lateEvening.occurrences thirdMidnight) 259200000 (some 174000000) ∧
      IsNext (lateEvening.occurrences thirdMidnight) 259200000 (some 260400000) ∧
      ∀ u ∈ lateEvening.occurrences thirdMidnight, ¬ (174000000 < u ∧ u < 260400000)) ∧
      Newest (lateEvening.occurrences thirdMidnight) 259200000 (fun _ => true) 32
        [174000000, 87600000] := by
  have nearest := occurrences_nearest lateEvening thirdMidnight
  obtain ⟨latest, next, between⟩ := nearest.1 (some 174000000) (some 260400000) rfl
  exact ⟨⟨latest, next, between _ rfl _ rfl⟩, nearest.2 (fun _ => true) [174000000, 87600000] rfl⟩

/-- The evening before is at 00:20 in Unix time, before the clock's own zero. -/
theorem lateEvening_misses_evening_before :
    scheduleOccurrences lateEvening firstHour = .ok (none, some 87600000) ∧
      ∃ c : Int, lateEvening.recurrence.Occurs 0 c ∧
        c + lateClock.unixDeltaMs firstHour = (1200000 : Nat) ∧
        1200000 ≤ firstHour.unixMs :=
  ⟨rfl, -2400000, ⟨-1, 1400, by decide, by decide⟩, rfl, by decide⟩

end Policy
