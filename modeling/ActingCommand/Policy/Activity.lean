import ActingCommand.Policy.Starts

/-!
# Activity windows and the day boundary

A run is admitted in the first declared window of the profile that is open. A run that would end
after that window defers to the first window start at or after its end.
-/

namespace Policy

open Machine Nearest List Except

/-- A weekly window, within the bounds of the catalog's validation. -/
structure ActivityWindow where
  weekdays : List Nat
  utcOffsetMinutes : Int
  startMinuteOfDay : Nat
  endMinuteOfDay : Nat
  minutes : startMinuteOfDay ≤ 1439 ∧ endMinuteOfDay ≤ 1439
  days : weekdays ≠ [] ∧ ∀ day ∈ weekdays, 1 ≤ day ∧ day ≤ 7
  offset : -840 ≤ utcOffsetMinutes ∧ utcOffsetMinutes ≤ 840

structure ActivityProfile where
  id : String
  windows : List ActivityWindow

structure ActivityWindowOccurrence where
  localDay : Int
  windowId : String
  fromUnixMs : Nat
  untilUnixMs : Nat

namespace ActivityWindow

variable (window : ActivityWindow)

def offsetMs : Int := window.utcOffsetMinutes * minuteMs

def FullDay : Prop := window.startMinuteOfDay = window.endMinuteOfDay

instance decidableFullDay : Decidable window.FullDay :=
  inferInstanceAs (Decidable (window.startMinuteOfDay = window.endMinuteOfDay))

def opensMs : Int := if window.FullDay then 0 else window.startMinuteOfDay * minuteMs

/-- Where a window ends, from the start of the local day it opens on. -/
def closesMs : Int :=
  if window.FullDay then dayMs
  else if window.endMinuteOfDay < window.startMinuteOfDay then
    dayMs + window.endMinuteOfDay * minuteMs
  else window.endMinuteOfDay * minuteMs

/-- The local day on which the occurrence open at an instant began. -/
def activeDay (now : Nat) : Option Int :=
  let localMs := now + window.offsetMs
  let day := localMs / dayMs
  let minute := localMs % dayMs / minuteMs
  let start := window.startMinuteOfDay
  let stop := window.endMinuteOfDay
  let activeDay := if ¬ window.FullDay ∧ stop < start ∧ minute < stop then day - 1 else day
  let active := window.FullDay ∨
    if start < stop then start ≤ minute ∧ minute < stop else start ≤ minute ∨ minute < stop
  if active ∧ (weekday activeDay).toNat ∈ window.weekdays then some activeDay else none

lemma opensMs_bounds : 0 ≤ window.opensMs ∧ window.opensMs < dayMs := by
  have := window.minutes
  simp only [opensMs, minuteMs, dayMs]
  split <;> omega

end ActivityWindow

/-- The first declared window that is open, from the windows at `index` on. -/
def windowAt (profileId : String) (now : Nat) :
    Nat → List ActivityWindow → Evaluated (Option ActivityWindowOccurrence)
  | _, [] => pure none
  | index, window :: rest =>
    match window.activeDay now with
    | none => windowAt profileId now (index + 1) rest
    | some activeDay => do
      let localDay ← orOverflow (toI64 activeDay) "activity window day overflowed"
      let start ← orOverflow (toU64 (max (weeklyStart window.opensMs window.offsetMs activeDay) 0))
        "activity window start overflowed"
      let stop ← orOverflow (toU64 (weeklyStart window.closesMs window.offsetMs activeDay))
        "activity window end overflowed"
      pure (some ⟨localDay, s!"{profileId}:{localDay}:{index}", start, stop⟩)

variable (profile : ActivityProfile)

def activityWindowAt (now : Nat) :
    Evaluated (Option ActivityWindowOccurrence) := windowAt profile.id now 0 profile.windows

/-- The first start of a window's occurrence at or after an instant. -/
def ActivityWindow.nextStart (window : ActivityWindow) (instant : Nat) : Evaluated (Option Nat) :=
  match (searchedDays ((instant + window.offsetMs) / dayMs)).find?
      (startsFrom window.weekdays window.opensMs window.offsetMs instant) with
  | none => pure none
  | some localDay => some <$> orOverflow
      (toU64 (weeklyStart window.opensMs window.offsetMs localDay))
      "an activity window start overflowed"

def nextWindowStart (instant : Nat) : Evaluated (Option Nat) :=
  earliestFrom (·.nextStart instant) profile.windows none

structure DayBoundaryDeferral where
  windowEndUnixMs : Nat
  requiredMs : Nat
  nextEligibleUnixMs : Nat

def dayBoundaryFit (now requiredMs : Nat) : Evaluated (Option DayBoundaryDeferral) := do
  match ← activityWindowAt profile now with
  | none => pure none
  | some window =>
    let ends ← orOverflow (checkedAdd now requiredMs) "the day-boundary fit's end overflowed"
    if ends ≤ window.untilUnixMs then pure none
    else
      let nextEligible ← Call.okOr (← nextWindowStart profile window.untilUnixMs)
        (PolicyEvaluationError.invalid "an activity profile has no next window start")
      pure (some ⟨window.untilUnixMs, requiredMs, nextEligible⟩)

/-! ## The wake -/

/-- The instants at which a window of the profile opens. -/
def ActivityProfile.starts : Set Int :=
  {s | ∃ window ∈ profile.windows, s ∈ weeklyStarts window.weekdays window.opensMs window.offsetMs}

lemma ActivityWindow.nextStart_isNext {window : ActivityWindow} {instant : Nat}
    {start : Option Nat} (answer : window.nextStart instant = .ok start) :
    IsNext (weeklyStarts window.weekdays window.opensMs window.offsetMs) (instant - 1)
      (start.map Nat.cast) := by
  have near := @isNext_searchedDays ((instant + window.offsetMs) / dayMs) window.weekdays
    window.opensMs window.offsetMs instant window.opensMs_bounds
    (by simp only [dayMs]; omega) (by simp only [dayMs]; omega)
  simp only [nextStart] at answer
  split at answer
  · rename_i found
    obtain rfl := ok.inj answer
    simpa [found] using near
  rename_i localDay found
  simp only [map_eq_pure_bind, bind_ok_iff, orOverflow_eq_ok_iff, pure_ok_iff] at answer
  obtain ⟨unix, narrowed, rfl⟩ := answer
  rw [found, Option.map_some, (toU64_eq_some_iff.mp narrowed).1] at near
  exact near

lemma nextWindowStart_isNext {profile : ActivityProfile} {instant : Nat} {start : Option Nat}
    (answer : nextWindowStart profile instant = .ok start) :
    IsNext profile.starts (instant - 1) (start.map Nat.cast) := by
  have none : IsNext (∅ : Set Int) (instant - 1) ((none : Option Nat).map Nat.cast) := by
    intro b hb
    exact hb.elim
  have near := isNext_earliestFrom (fun window _ start first => window.nextStart_isNext first)
    none answer
  simpa [ActivityProfile.starts] using near

/-- A deferral wakes at the first start from the end of the open window on. -/
theorem dayBoundaryFit_defers {profile} {now requiredMs : Nat} {deferral}
    (defers : dayBoundaryFit profile now requiredMs = .ok (some deferral)) :
    ∃ window, activityWindowAt profile now = .ok (some window) ∧
      IsLeast {s ∈ profile.starts | (window.untilUnixMs : Int) ≤ s}
        deferral.nextEligibleUnixMs := by
  obtain ⟨_ | window, opened, defers⟩ := bind_ok_iff.mp defers
  · cases defers
  obtain ⟨ends, -, defers⟩ := bind_ok_iff.mp defers
  split at defers
  · cases defers
  obtain ⟨start, next, defers⟩ := bind_ok_iff.mp defers
  obtain ⟨wake, some, defers⟩ := bind_ok_iff.mp defers
  obtain rfl := okOr_ok_iff.mp some
  cases defers
  refine ⟨window, opened, ?_⟩
  have least := nextWindowStart_isNext next
  simpa [IsNext, Int.sub_one_lt_iff] using least

/-- The wake is the profile's first start after now unless one lies inside the open window. -/
theorem wake_first_start_iff {profile : ActivityProfile} {now requiredMs : Nat}
    {deferral : DayBoundaryDeferral}
    (defers : dayBoundaryFit profile now requiredMs = .ok (some deferral)) :
    ((∀ s ∈ profile.starts, ¬ (now < s ∧ s < deferral.nextEligibleUnixMs)) ∧
        (deferral.nextEligibleUnixMs : Int) ∈ profile.starts) ↔
      ∀ window, activityWindowAt profile now = .ok (some window) →
        ∀ s ∈ profile.starts, now < s → window.untilUnixMs ≤ s := by
  obtain ⟨window, opened, ⟨begins, ends⟩, least⟩ := dayBoundaryFit_defers defers
  constructor
  · rintro ⟨first, -⟩ other same s start after
    cases opened.symm.trans same
    by_contra inside
    exact first s start ⟨after, by omega⟩
  · intro outside
    refine ⟨fun s start between => ?_, begins⟩
    have le := least ⟨start, outside window opened s start between.1⟩
    omega

namespace Sample

def hourMs : Nat := 3600000

def everyDay (start stop : Nat) (minutes : start ≤ 1439 ∧ stop ≤ 1439) : ActivityWindow where
  weekdays := [1, 2, 3, 4, 5, 6, 7]
  utcOffsetMinutes := 0
  startMinuteOfDay := start
  endMinuteOfDay := stop
  minutes := minutes
  days := by decide
  offset := by decide

def daytime : ActivityProfile := ⟨"daytime", [everyDay 480 1200 (by decide)]⟩

theorem daytime_wake : dayBoundaryFit daytime (10 * hourMs) (11 * hourMs) =
      .ok (some ⟨20 * hourMs, 11 * hourMs, 32 * hourMs⟩) ∧
    (∀ s ∈ daytime.starts, ¬ ((10 * hourMs : Nat) < s ∧ s < (32 * hourMs : Nat))) ∧
      ((32 * hourMs : Nat) : Int) ∈ daytime.starts := by
  have defers : dayBoundaryFit daytime (10 * hourMs) (11 * hourMs) =
      .ok (some ⟨20 * hourMs, 11 * hourMs, 32 * hourMs⟩) := by rfl
  refine ⟨defers, (wake_first_start_iff defers).mpr ?_⟩
  rintro window opened s ⟨_, listed, localDay, -, rfl⟩ after
  have first : activityWindowAt daytime (10 * hourMs) =
      .ok (some ⟨0, "daytime:0:0", 8 * hourMs, 20 * hourMs⟩) := by rfl
  cases first.symm.trans opened
  obtain rfl := mem_singleton.mp listed
  have opens : weeklyStart (everyDay 480 1200 (by decide)).opensMs
      (everyDay 480 1200 (by decide)).offsetMs localDay = localDay * 86400000 + 28800000 - 0 := rfl
  rw [opens] at after ⊢
  simp only [hourMs] at after ⊢
  omega

/-- A run of thirteen hours at ten o'clock: it fits the late window, which opens at noon. -/
def overlapping : ActivityProfile :=
  ⟨"overlapping", [everyDay 720 240 (by decide), everyDay 480 1200 (by decide)]⟩

theorem overlapping_skips_start : ¬ ∀ (profile : ActivityProfile) (now requiredMs : Nat)
    (deferral : DayBoundaryDeferral), dayBoundaryFit profile now requiredMs = .ok (some deferral) →
      (∀ s ∈ profile.starts, ¬ (now < s ∧ s < deferral.nextEligibleUnixMs)) ∧
        (deferral.nextEligibleUnixMs : Int) ∈ profile.starts := by
  intro all
  have defers : dayBoundaryFit overlapping (10 * hourMs) (13 * hourMs) =
      .ok (some ⟨20 * hourMs, 13 * hourMs, 32 * hourMs⟩) := by rfl
  have noon : ((12 * hourMs : Nat) : Int) ∈ overlapping.starts :=
    ⟨everyDay 720 240 (by decide), mem_cons_self, 0, by decide, by decide⟩
  exact (all _ _ _ _ defers).1 _ noon (by decide)

/-- At noon the run fits. -/
example : dayBoundaryFit overlapping (12 * hourMs) (13 * hourMs) = .ok none := by rfl

end Sample

end Policy
