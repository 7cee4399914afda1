import ActingCommand.Policy.Blackout

/-!
# What blackouts cover

The instants covered by some interval of the three sources, and the starts of those intervals.
A point query lists intervals around its point and misses none, except those of the catalog at an
instant its clock cannot be moved to; the next start is the least one.
-/

namespace Policy

open Machine Nearest IntervalUnion List Option Except

/-! ## What the sources cover -/

/-- The instants of a weekly occurrence. -/
def Weekly.occupied (weekly : Weekly) (weekdays : List Nat) (day : Int) : Set Nat :=
  {x | (weekday day).toNat ∈ weekdays ∧ weekly.start day ≤ x ∧
    x < weekly.start day + weekly.lengthMs}

/-- The instants an entry covers. -/
def BlackoutWindow.covered : BlackoutWindow → Set Nat
  | .once fromUnixMs untilUnixMs _ _ => {x | fromUnixMs ≤ x ∧ x < untilUnixMs}
  | .weekly weekdays utcOffsetMinutes startMinuteOfDay endMinuteOfDay _ =>
    {x | ∃ day, x ∈ (Weekly.new utcOffsetMinutes startMinuteOfDay endMinuteOfDay).occupied
      weekdays day}

/-- The instants at which an entry begins to cover. -/
def BlackoutWindow.starts : BlackoutWindow → Set Int
  | .once fromUnixMs _ _ _ => {(fromUnixMs : Int)}
  | .weekly weekdays utcOffsetMinutes startMinuteOfDay endMinuteOfDay _ =>
    let weekly := Weekly.new utcOffsetMinutes startMinuteOfDay endMinuteOfDay
    weeklyStarts weekdays weekly.startMs weekly.offsetMs

namespace TimelineEvent

/-- The instants an event covers: those of an occurrence, clipped by its validity. -/
def covered (event : TimelineEvent) (time : EvaluationTime) : Set Nat :=
  {x | ∃ validity ∈ event.validity, ∃ occurrence ∈ event.schedule.occurrences time,
    occurrence ≤ x ∧ validity.fromUnixMs ≤ x ∧ x < occurrence + event.durationMs ∧
      ∀ ends ∈ validity.untilUnixMs, x < ends}

/-- The instants at which a clipped occurrence that is not empty begins. -/
def starts (event : TimelineEvent) (time : EvaluationTime) : Set Int :=
  {s | ∃ validity ∈ event.validity, ∃ occurrence ∈ event.schedule.occurrences time,
    s = max occurrence validity.fromUnixMs ∧ s < occurrence + event.durationMs ∧
      ∀ ends ∈ validity.untilUnixMs, s < ends}

end TimelineEvent

section Covered

variable (sources : BlackoutSources) (snapshot : InstanceSnapshot) (time : EvaluationTime)

/-- The instants that some interval of the three sources covers. -/
def blackedOut : Set Nat :=
  {x | (∃ entry ∈ configured sources snapshot, x ∈ entry.2.window.covered) ∨
    ∃ event ∈ maintenance sources snapshot, x ∈ event.covered time}

def blackoutStarts : Set Int :=
  {s | ∃ entry ∈ configured sources snapshot, s ∈ entry.2.window.starts} ∪
    {s | ∃ event ∈ maintenance sources snapshot, s ∈ event.starts time}

end Covered

/-- What a query for one member tells of the instants it covers: an interval inside them around
the instant, if the instant is one of them. -/
structure Tells (covered : Set Nat) (instant : Nat) (found : Option (Nat × Nat)) : Prop where
  complete : instant ∈ covered → found ≠ none
  around : ∀ span ∈ found, span.1 ≤ instant ∧ instant < span.2
  inside : ∀ span ∈ found, ∀ y, span.1 ≤ y → y < span.2 → y ∈ covered
  fits : ∀ span ∈ found, span.2 ≤ u64Max

variable {found : Option (Nat × Nat)}

namespace Weekly

variable {weekly : Weekly} {weekdays : List Nat} {day : Int} {instant : Nat}

lemma new_startMs {utc : Int} {start stop : Nat} (h : start ≤ 1439) :
    0 ≤ (new utc start stop).startMs ∧ (new utc start stop).startMs < dayMs := by
  simp only [new, minuteMs, dayMs]
  omega

lemma new_lengthMs {utc : Int} {start stop : Nat} (h : start ≤ 1439 ∧ stop ≤ 1439) :
    0 < (new utc start stop).lengthMs ∧ (new utc start stop).lengthMs ≤ dayMs := by
  simp only [new, minuteMs, dayMs]
  split <;> omega

lemma occurrence_covers_iff {start stop : Nat} (answer : weekly.occurrence day = .ok (start, stop))
    (y : Nat) : (start ≤ y ↔ weekly.start day ≤ y) ∧
      (y < stop ↔ (y : Int) < weekly.start day + weekly.lengthMs) ∧ stop ≤ u64Max := by
  simp only [occurrence, unix, bind_ok_iff, orOverflow_eq_ok_iff, toU64_eq_some_iff, pure_ok_iff,
    Prod.mk.injEq] at answer
  obtain ⟨_, ⟨first, -⟩, _, ⟨last, fits⟩, rfl, rfl⟩ := answer
  omega

lemma coveringOn_tells {covered : Set Nat} {before} (told : Tells covered instant before)
    (answer : weekly.coveringOn weekdays instant before day = .ok found) :
    Tells (covered ∪ weekly.occupied weekdays day) instant found := by
  unfold coveringOn at answer
  split at answer
  · rename_i listed
    obtain ⟨⟨start, stop⟩, held, answer⟩ := bind_ok_iff.mp answer
    obtain rfl := ok.inj answer
    have clipped := occurrence_covers_iff held
    split
    · rename_i covers
      refine ⟨by simp, ?_, ?_, ?_⟩
      · rintro _ ⟨⟩
        exact ⟨covers.1, covers.2.1⟩
      · rintro _ ⟨⟩ y above below
        exact .inr ⟨listed, (clipped y).1.mp above, (clipped y).2.1.mp below⟩
      · rintro _ ⟨⟩
        exact (clipped instant).2.2
    · rename_i apart
      refine ⟨?_, told.around,
        fun span mem y above below => .inl (told.inside span mem y above below), told.fits⟩
      rintro (here | ⟨-, above, below⟩) rfl
      · exact told.complete here rfl
      · exact apart ⟨(clipped instant).1.mpr above, (clipped instant).2.1.mpr below, rfl⟩
  · rename_i unlisted
    obtain rfl := ok.inj answer
    refine ⟨?_, told.around,
      fun span mem y above below => .inl (told.inside span mem y above below), told.fits⟩
    rintro (here | ⟨listed, -⟩)
    · exact told.complete here
    · exact absurd listed unlisted

end Weekly

open Weekly

lemma entryCovering_tells {window} {instant : Nat}
    (answer : entryCovering window instant = .ok found) : Tells window.covered instant found := by
  cases window with
  | once fromUnixMs untilUnixMs nonempty fits =>
    obtain rfl := ok.inj answer
    split
    · rename_i covers
      refine ⟨by simp, ?_, ?_, ?_⟩
      · rintro _ ⟨⟩
        exact covers
      · rintro _ ⟨⟩ y above below
        exact ⟨above, below⟩
      · rintro _ ⟨⟩
        exact fits
    · rename_i apart
      exact ⟨fun here => absurd here apart, by simp, by simp, by simp⟩
  | weekly weekdays utc start stop minutes =>
    obtain ⟨before, first, second⟩ := bind_ok_iff.mp answer
    have none : Tells ∅ instant none := ⟨fun here => here.elim, by simp, by simp, by simp⟩
    have told := Weekly.coveringOn_tells (Weekly.coveringOn_tells none first) second
    refine ⟨?_, told.around, ?_, told.fits⟩
    · rintro ⟨day, listed, above, below⟩
      have starts := @Weekly.new_startMs utc start stop minutes.1
      have lasts := @Weekly.new_lengthMs utc start stop minutes
      -- Of the occurrences around the instant, one begins on its local day or the day before.
      have near : day = (Weekly.new utc start stop).localDay instant - 1 ∨
          day = (Weekly.new utc start stop).localDay instant := by
        simp only [Weekly.start, weeklyStart, Weekly.localDay, dayMs] at above below starts lasts ⊢
        omega
      rcases near with rfl | rfl
      · exact told.complete (.inl (.inr ⟨listed, above, below⟩))
      · exact told.complete (.inr ⟨listed, above, below⟩)
    · intro span mem y above below
      rcases told.inside span mem y above below with (here | here) | here
      · exact here.elim
      · exact ⟨_, here⟩
      · exact ⟨_, here⟩

variable {there : EvaluationTime}

lemma moved_reads {time} {instant : Nat}
    (answer : moved time instant = some there) (schedule : ClockSchedule) :
    there.unixMs = instant ∧ schedule.occurrences there = schedule.occurrences time := by
  simp only [moved, dite_none_right_eq_some, some.injEq] at answer
  obtain ⟨inside, rfl⟩ := answer
  refine ⟨rfl, ?_⟩
  have same : schedule.clockSource.unixDeltaMs ⟨instant, _, moved_fits inside.1 inside.2.2⟩ =
      schedule.clockSource.unixDeltaMs time := by
    cases schedule.clockSource with
    | onHost =>
      simp only [ClockSource.unixDeltaMs]
      omega
    | server => rfl
    | reveal => rfl
  rw [ClockSchedule.occurrences, same, ClockSchedule.occurrences]

lemma moved_forward {time} {instant : Nat}
    (origin : time.monotonicMs ≤ time.unixMs) (forward : time.unixMs ≤ instant)
    (inside : instant ≤ u64Max) : ∃ there, moved time instant = some there := by
  have fits : instant ≤ u64Max ∧ 0 ≤ (time.monotonicMs + (instant - time.unixMs) : Int) ∧
      (time.monotonicMs + (instant - time.unixMs) : Int) ≤ u64Max := by omega
  exact ⟨_, dif_pos fits⟩

variable {start : Option Nat}

namespace TimelineEvent

variable {event : TimelineEvent} {validity : TimelineValidity} {time : EvaluationTime}
variable {instant : Nat}

lemma lt_stop_iff {ends : Nat} {untilMs : Option Nat} (y : Nat) :
    y < untilMs.elim ends (min ends) ↔ y < ends ∧ ∀ u ∈ untilMs, y < u := by
  cases untilMs with
  | none => simp
  | some u => simp

variable {occurrence : Nat}

lemma clipped_eq (answer : event.clipped validity occurrence = .ok found) :
    found = if max occurrence validity.fromUnixMs <
        validity.untilUnixMs.elim (occurrence + event.durationMs)
          (min (occurrence + event.durationMs))
      then some (max occurrence validity.fromUnixMs,
        validity.untilUnixMs.elim (occurrence + event.durationMs)
          (min (occurrence + event.durationMs)))
      else none := by
  obtain ⟨ends, added, answer⟩ := bind_ok_iff.mp answer
  obtain ⟨rfl, -⟩ := checkedAdd_eq_some_iff.mp (orOverflow_eq_ok_iff.mp added)
  exact (ok.inj answer).symm

lemma clipped_fits (answer : event.clipped validity occurrence = .ok found) (span : Nat × Nat)
    (mem : span ∈ found) : span.2 ≤ u64Max := by
  have eq := clipped_eq answer
  obtain ⟨ends, added, -⟩ := bind_ok_iff.mp answer
  obtain ⟨rfl, fits⟩ := checkedAdd_eq_some_iff.mp (orOverflow_eq_ok_iff.mp added)
  rw [eq, mem_def, ite_none_right_eq_some] at mem
  obtain ⟨-, same⟩ := mem
  obtain rfl := some.inj same
  cases validity.untilUnixMs with
  | none => exact fits
  | some u => exact (min_le_left _ _).trans fits

theorem clipped_covers_iff (answer : event.clipped validity occurrence = .ok found) (y : Nat) :
    (∃ span ∈ found, span.1 ≤ y ∧ y < span.2) ↔
      occurrence ≤ y ∧ validity.fromUnixMs ≤ y ∧ y < occurrence + event.durationMs ∧
        ∀ ends ∈ validity.untilUnixMs, y < ends := by
  have inside := @lt_stop_iff (occurrence + event.durationMs) validity.untilUnixMs y
  rw [clipped_eq answer]
  split
  · simp [inside, and_assoc]
  rename_i empty
  constructor
  · simp
  · rintro ⟨above, valid, below, ends⟩
    exact absurd ((max_le above valid).trans_lt (inside.mpr ⟨below, ends⟩)) empty

lemma explicitValidity_eq (answer : event.explicitValidity = .ok validity) :
    event.validity = some validity := okOr_ok_iff.mp answer

lemma interval_tells (reads : moved time instant = some there)
    (answer : event.interval time instant = .ok found) :
    Tells (event.covered time) instant
      (found.filter fun span => span.1 ≤ instant ∧ instant < span.2) := by
  obtain ⟨validity, valid, answer⟩ := bind_ok_iff.mp answer
  replace valid := explicitValidity_eq valid
  split at answer
  · rename_i outside
    obtain rfl := ok.inj answer
    refine ⟨?_, by simp, by simp, by simp⟩
    rintro ⟨v, mem, occurrence, -, above, -, below, ends⟩
    cases valid.symm.trans mem
    rcases outside with zero | ended
    · omega
    cases held : validity.untilUnixMs with
    | none => simp [held] at ended
    | some u =>
      have := ends u held
      simp [held] at ended
      omega
  simp only [reads] at answer
  obtain ⟨⟨latest, next⟩, occurs, answer⟩ := bind_ok_iff.mp answer
  obtain ⟨here, same⟩ := moved_reads reads event.schedule
  have near := (scheduleOccurrences_nearest occurs).1
  rw [here, same] at near
  cases latest with
  | none =>
    obtain rfl := ok.inj answer
    refine ⟨?_, by simp, by simp, by simp⟩
    rintro ⟨v, mem, occurrence, occurs, above, -⟩
    exact absurd above (not_le_of_gt (near occurrence occurs))
  | some latest =>
    have covers := clipped_covers_iff answer
    refine ⟨?_, ?_, ?_, fun span mem => clipped_fits answer span (mem_filter_iff.mp mem).1⟩
    · rintro ⟨v, mem, occurrence, occurs, above, valid', below, ends⟩
      cases valid.symm.trans mem
      have later := near.2 ⟨occurs, above⟩
      obtain ⟨span, held, around⟩ := (covers instant).mpr
        ⟨by exact_mod_cast near.1.2, valid', by omega, ends⟩
      rw [mem_def.mp held, filter_some, if_pos (by simpa using around)]
      exact some_ne_none _
    · intro span mem
      simpa using (mem_filter_iff.mp mem).2
    · intro span mem y above below
      obtain ⟨occurs, from_valid, below, ends⟩ := (covers y).mp
        ⟨span, (mem_filter_iff.mp mem).1, above, below⟩
      exact ⟨validity, valid, latest, near.1.1, by omega, from_valid, by omega, ends⟩

theorem clipped_start_iff (answer : event.clipped validity occurrence = .ok found) (s : Nat) :
    found.map Prod.fst = some s ↔ s = max occurrence validity.fromUnixMs ∧
      s < occurrence + event.durationMs ∧ ∀ ends ∈ validity.untilUnixMs, s < ends := by
  have inside := @lt_stop_iff (occurrence + event.durationMs) validity.untilUnixMs
  rw [clipped_eq answer]
  split
  · rename_i nonempty
    simp only [map_some, some.injEq]
    constructor
    · rintro rfl
      exact ⟨rfl, (inside _).mp nonempty⟩
    · exact fun h => h.1.symm
  · rename_i empty
    simp only [map_none, reduceCtorEq, false_iff]
    rintro ⟨rfl, rest⟩
    exact empty ((inside _).mpr rest)

lemma mem_starts_iff (valid : event.validity = some validity) (s : Int) :
    s ∈ event.starts time ↔ ∃ occurrence ∈ event.schedule.occurrences time,
      s = max occurrence validity.fromUnixMs ∧ s < occurrence + event.durationMs ∧
        ∀ ends ∈ validity.untilUnixMs, s < ends := by
  simp [starts, valid]

section Probe

variable {after probe : Nat} (valid : event.validity = some validity)
variable (from_probe : probe = max (after + 1) validity.fromUnixMs)

include valid from_probe

section

variable {latest : Option Nat} {early : Option (Nat × Nat)}
  (near : IsLatest (event.schedule.occurrences time) probe (latest.map Nat.cast))
  (answer : event.clippedSome validity latest = .ok early)

include near answer

/-- The latest occurrence at or before the probe begins after the instant only at the probe. -/
theorem early_start {s : Nat} (found : (early.map Prod.fst).filter (after < ·) = some s) :
    (s : Int) ∈ event.starts time ∧ after < s ∧ s = probe := by
  obtain ⟨begins, late⟩ := filter_eq_some_iff.mp found
  replace late : after < s := by simpa using late
  cases latest with
  | none =>
    obtain rfl := ok.inj answer
    cases begins
  | some occurrence =>
    obtain ⟨same, below, ends⟩ := (clipped_start_iff answer s).mp begins
    have before : (occurrence : Int) ≤ probe := near.1.2
    refine ⟨(mem_starts_iff valid s).mpr ⟨occurrence, near.1.1, by omega, by omega, ?_⟩,
      late, by omega⟩
    exact fun u held => by exact_mod_cast ends u held

/-- If that one does not, no occurrence at or before the probe does. -/
theorem no_early_start (refused : (early.map Prod.fst).filter (after < ·) = none) {s : Int}
    (mem : s ∈ event.starts time) (late : after < s) :
    ∃ occurrence ∈ event.schedule.occurrences time, probe < occurrence ∧ s = occurrence := by
  obtain ⟨occurrence, occurs, same, below, ends⟩ := (mem_starts_iff valid s).mp mem
  suffices beyond : probe < occurrence from ⟨occurrence, occurs, beyond, by omega⟩
  by_contra before
  have before : occurrence ≤ probe := not_lt.mp before
  cases latest with
  | none => exact absurd before (not_le_of_gt (near occurrence occurs))
  | some latest =>
    have later : occurrence ≤ latest := near.2 ⟨occurs, before⟩
    have at_probe : (latest : Int) ≤ probe := near.1.2
    have begins := (clipped_start_iff answer probe).mpr
      ⟨by omega, by omega, fun u held => by have := ends u held; omega⟩
    rw [begins] at refused
    simp at refused
    omega

end

end Probe

lemma startAfter_isNext {after : Nat} (origin : time.monotonicMs ≤ time.unixMs)
    (forward : time.unixMs ≤ after) (room : after < u64Max)
    (answer : event.startAfter time after = .ok start) :
    IsNext (event.starts time) after (start.map Nat.cast) := by
  obtain ⟨validity, valid, answer⟩ := bind_ok_iff.mp answer
  replace valid := explicitValidity_eq valid
  have nothing (absent : ∀ s ∈ event.starts time, ¬ after < s) :
      IsNext (event.starts time) after ((none : Option Nat).map Nat.cast) :=
    fun s mem => not_lt.mp (absent s mem)
  have increased : checkedAdd after 1 = some (after + 1) :=
    checkedAdd_eq_some_iff.mpr ⟨rfl, room⟩
  split at answer
  · rename_i zero
    obtain rfl := ok.inj answer
    refine nothing fun s mem => ?_
    obtain ⟨occurrence, -, same, below, -⟩ := (mem_starts_iff valid s).mp mem
    omega
  rename_i lasting
  rw [increased, map_some] at answer
  simp only at answer
  -- A start after the instant lies at or after the probe.
  have probed {s : Int} (mem : s ∈ event.starts time) (late : after < s) :
      ((max (after + 1) validity.fromUnixMs : Nat) : Int) ≤ s := by
    obtain ⟨occurrence, -, same, -⟩ := (mem_starts_iff valid s).mp mem
    omega
  split at answer
  · rename_i ended
    obtain rfl := ok.inj answer
    refine nothing fun s mem late => ?_
    obtain ⟨occurrence, -, -, -, ends⟩ := (mem_starts_iff valid s).mp mem
    cases held : validity.untilUnixMs with
    | none => simp [held] at ended
    | some u =>
      have := ends u held
      have := probed mem late
      simp [held] at ended
      omega
  rename_i within
  obtain ⟨there, reads⟩ := @moved_forward time (max (after + 1) validity.fromUnixMs) origin
    (by omega) (max_le room validity.fits)
  obtain ⟨here, same⟩ := moved_reads reads event.schedule
  simp only [reads] at answer
  obtain ⟨⟨latest, next⟩, occurs, answer⟩ := bind_ok_iff.mp answer
  have near := scheduleOccurrences_nearest occurs
  rw [here, same] at near
  obtain ⟨early, clipped, answer⟩ := bind_ok_iff.mp answer
  split at answer
  · rename_i s found
    obtain rfl := ok.inj answer
    obtain ⟨mem, late, rfl⟩ := early_start valid rfl near.1 clipped found
    exact ⟨⟨mem, by exact_mod_cast late⟩, fun b hb => probed hb.1 hb.2⟩
  rename_i refused
  obtain ⟨later, clipped', answer⟩ := bind_ok_iff.mp answer
  obtain rfl := ok.inj answer
  have beyond {s : Int} := @no_early_start event validity time after _ valid rfl latest early
    near.1 clipped refused s
  cases next with
  | none =>
    obtain rfl := ok.inj clipped'
    refine nothing fun s mem late => ?_
    obtain ⟨occurrence, occurs, lt, -⟩ := beyond mem late
    exact absurd lt (not_lt_of_ge (near.2 occurrence occurs))
  | some next =>
    have begins := clipped_start_iff clipped'
    have after_probe : ((max (after + 1) validity.fromUnixMs : Nat) : Int) < next := near.2.1.2
    cases found : later.map Prod.fst with
    | none =>
      refine nothing fun s mem late => ?_
      obtain ⟨occurrence, occurs, lt, same'⟩ := beyond mem late
      have le : (next : Int) ≤ occurrence := near.2.2 ⟨occurs, lt⟩
      obtain ⟨-, -, -, -, ends⟩ := (mem_starts_iff valid s).mp mem
      have start := (begins next).mpr
        ⟨by omega, by omega, fun u held => by have := ends u held; omega⟩
      rw [found] at start
      cases start
    | some s =>
      obtain ⟨same', below, ends⟩ := (begins s).mp found
      refine ⟨⟨(mem_starts_iff valid s).mpr ⟨next, near.2.1.1, by omega, by omega, ?_⟩, by omega⟩,
        ?_⟩
      · exact fun u held => by exact_mod_cast ends u held
      rintro b ⟨mem, late⟩
      obtain ⟨occurrence, occurs, lt, begun⟩ := beyond mem late
      have le : (next : Int) ≤ occurrence := near.2.2 ⟨occurs, lt⟩
      omega

end TimelineEvent

/-! ## The next start -/

lemma Weekly.startAfter_eq {weekly : Weekly} {weekdays} {after : Nat} {days}
    (answer : weekly.startAfter weekdays after days = .ok start) :
    start.map Nat.cast = (days.find? (startsFrom weekdays weekly.startMs weekly.offsetMs
      (after + 1))).map (weeklyStart weekly.startMs weekly.offsetMs) := by
  induction days with
  | nil =>
    obtain rfl := ok.inj answer
    rfl
  | cons day rest ih =>
    have refused (h : ¬ startsFrom weekdays weekly.startMs weekly.offsetMs (after + 1) day = true) :
        (day :: rest).find? (startsFrom weekdays weekly.startMs weekly.offsetMs (after + 1)) =
          rest.find? (startsFrom weekdays weekly.startMs weekly.offsetMs (after + 1)) :=
      find?_cons_of_neg h
    unfold startAfter at answer
    split at answer
    · rename_i listed
      obtain ⟨⟨first, stop⟩, held, answer⟩ := bind_ok_iff.mp answer
      have clipped (y : Nat) : first ≤ y ↔ weeklyStart weekly.startMs weekly.offsetMs day ≤ y :=
        (occurrence_covers_iff held y).1
      simp only at answer
      split at answer
      · rename_i late
        obtain rfl := ok.inj answer
        have accepted : startsFrom weekdays weekly.startMs weekly.offsetMs (after + 1) day = true :=
          startsFrom_iff.mpr ⟨listed, by have := clipped after; omega⟩
        rw [find?_cons_of_pos accepted]
        have same : weeklyStart weekly.startMs weekly.offsetMs day = first := by
          have := clipped first
          have := clipped (first - 1)
          omega
        rw [map_some, map_some, same]
      · rename_i early
        rw [refused fun accepted => early (by
          have := (startsFrom_iff.mp accepted).2
          have := clipped after
          omega)]
        exact ih answer
    · rename_i unlisted
      rw [refused fun accepted => unlisted (startsFrom_iff.mp accepted).1]
      exact ih answer

lemma entryStartAfter_isNext {window} {after : Nat}
    (answer : entryStartAfter window after = .ok start) :
    IsNext window.starts after (start.map Nat.cast) := by
  cases window with
  | once fromUnixMs untilUnixMs nonempty fits =>
    obtain rfl := ok.inj answer
    split
    · rename_i late
      refine ⟨⟨rfl, by exact_mod_cast late⟩, ?_⟩
      rintro _ ⟨rfl, -⟩
      exact le_rfl
    · rename_i early
      rintro _ rfl
      exact_mod_cast not_lt.mp early
  | weekly weekdays utc start stop minutes =>
    rw [startAfter_eq answer]
    have near := @isNext_searchedDays ((new utc start stop).localDay after) weekdays
      (new utc start stop).startMs (new utc start stop).offsetMs (after + 1)
      (new_startMs minutes.1) (by simp only [localDay, dayMs]; omega)
      (by simp only [localDay, dayMs]; omega)
    rwa [Int.add_sub_cancel] at near

section Starts

variable {sources : BlackoutSources} {snapshot : InstanceSnapshot} {time : EvaluationTime}

lemma earliestStartAfter_isNext {after : Nat} (origin : time.monotonicMs ≤ time.unixMs)
    (forward : time.unixMs ≤ after) (room : after < u64Max)
    (answer : earliestStartAfter sources snapshot time after = .ok start) :
    IsNext (blackoutStarts sources snapshot time) after (start.map Nat.cast) := by
  obtain ⟨entries, first, second⟩ := bind_ok_iff.mp answer
  have nothing : IsNext (∅ : Set Int) after ((none : Option Nat).map Nat.cast) := by
    intro b hb
    exact hb.elim
  have near := isNext_earliestFrom (fun entry _ start given => entryStartAfter_isNext given)
    nothing first
  rw [Set.empty_union] at near
  exact isNext_earliestFrom (fun event _ start given =>
    TimelineEvent.startAfter_isNext origin forward room given) near second

/-- An interval begins inside what the sources cover. -/
theorem start_blackedOut {s : Nat} (begins : (s : Int) ∈ blackoutStarts sources snapshot time) :
    s ∈ blackedOut sources snapshot time := by
  rcases begins with ⟨entry, listed, begins⟩ | ⟨event, listed, begins⟩
  · refine .inl ⟨entry, listed, ?_⟩
    cases same : entry.2.window with
    | once fromUnixMs untilUnixMs nonempty fits =>
      rw [same] at begins
      obtain rfl := Int.ofNat.inj begins
      exact ⟨le_rfl, nonempty⟩
    | weekly weekdays utc start stop minutes =>
      rw [same] at begins
      obtain ⟨day, on, begins⟩ := begins
      have lasts := @Weekly.new_lengthMs utc start stop minutes
      exact ⟨day, on, begins.le, by simp only [Weekly.start, begins]; omega⟩
  · obtain ⟨validity, valid, occurrence, occurs, same, below, ends⟩ := begins
    refine .inr ⟨event, listed, validity, valid, occurrence, occurs, by omega, by omega, below, ?_⟩
    exact fun u held => by exact_mod_cast ends u held

/-- An instant covered after one that is not has a start between them. -/
theorem exists_start {a x : Nat} (free : a ∉ blackedOut sources snapshot time) (after : a < x)
    (covered : x ∈ blackedOut sources snapshot time) :
    ∃ s ∈ blackoutStarts sources snapshot time, a < s ∧ s ≤ x := by
  rcases covered with ⟨entry, listed, covered⟩ | ⟨event, listed, covered⟩
  · have apart : a ∉ entry.2.window.covered := fun here => free (.inl ⟨entry, listed, here⟩)
    suffices between : ∃ s ∈ entry.2.window.starts, a < s ∧ s ≤ x by
      obtain ⟨s, begins, between⟩ := between
      exact ⟨s, .inl ⟨entry, listed, begins⟩, between⟩
    cases same : entry.2.window with
    | once fromUnixMs untilUnixMs nonempty fits =>
      rw [same] at covered apart
      refine ⟨fromUnixMs, rfl, ?_, by exact_mod_cast covered.1⟩
      by_contra before
      exact apart ⟨by omega, after.trans covered.2⟩
    | weekly weekdays utc start stop minutes =>
      rw [same] at covered apart
      obtain ⟨day, on, above, below⟩ := covered
      refine ⟨_, ⟨day, on, rfl⟩, ?_, above⟩
      by_contra before
      exact apart ⟨day, on, not_lt.mp before, by omega⟩
  · obtain ⟨validity, valid, occurrence, occurs, above, from_valid, below, ends⟩ := covered
    refine ⟨max occurrence validity.fromUnixMs, .inr ⟨event, listed, validity, valid, occurrence,
      occurs, rfl, by omega, fun u held => by have := ends u held; omega⟩, ?_, by omega⟩
    by_contra before
    exact free (.inr ⟨event, listed, validity, valid, occurrence, occurs, by omega, by omega,
      by omega, fun u held => after.trans (ends u held)⟩)

end Starts

/-! ## Following the union -/

lemma gathered_ok {α β : Type} {give} {members : List α} {all : List β}
    (answer : gathered give members = .ok all) :
    (∀ member ∈ members, ∃ given, give member = .ok given ∧ ∀ b ∈ given, b ∈ all) ∧
      ∀ b ∈ all, ∃ member ∈ members, give member = .ok (some b) := by
  induction members generalizing all with
  | nil =>
    obtain rfl := ok.inj answer
    exact ⟨by simp, by simp⟩
  | cons member rest ih =>
    obtain ⟨given, first, answer⟩ := bind_ok_iff.mp answer
    obtain ⟨others, second, answer⟩ := bind_ok_iff.mp answer
    obtain rfl := ok.inj answer
    obtain ⟨every, sources⟩ := ih second
    refine ⟨?_, ?_⟩
    · rintro m (_ | ⟨_, listed⟩)
      · exact ⟨given, first, fun b held => mem_append_left _ (mem_toList.mpr held)⟩
      · obtain ⟨given', gives, held⟩ := every m listed
        exact ⟨given', gives, fun b mem => mem_append_right _ (held b mem)⟩
    intro b mem
    rcases mem_append.mp mem with here | there
    · obtain rfl := mem_toList.mp here
      exact ⟨member, mem_cons_self, first⟩
    · obtain ⟨m, listed, gives⟩ := sources b there
      exact ⟨m, mem_cons_of_mem _ listed, gives⟩

section Follow

variable {sources : BlackoutSources} {snapshot : InstanceSnapshot} {time : EvaluationTime}

lemma coveringEntry_ok {instant : Nat} {entry found}
    (answer : coveringEntry instant entry = .ok found) :
    Tells entry.2.window.covered instant (found.map fun i => (i.start, i.stop)) := by
  obtain ⟨spans, told, answer⟩ := bind_ok_iff.mp answer
  obtain rfl := ok.inj answer
  have tells := entryCovering_tells told
  simpa [Option.map_map, Function.comp_def] using tells

/-- An instant the event's clock cannot be moved to is not seen at all. -/
theorem coveringEvent_ok {instant : Nat} {event found}
    (answer : coveringEvent time instant event = .ok found) :
    (∃ there, moved time instant = some there) ∧
        Tells (event.covered time) instant (found.map fun i => (i.start, i.stop)) ∨
      moved time instant = none ∧ found = none := by
  obtain ⟨spans, told, answer⟩ := bind_ok_iff.mp answer
  obtain rfl := ok.inj answer
  cases reads : moved time instant with
  | some there =>
    refine .inl ⟨⟨there, rfl⟩, ?_⟩
    have tells := TimelineEvent.interval_tells reads told
    simpa [Option.map_map, Function.comp_def] using tells
  | none =>
    refine .inr ⟨rfl, ?_⟩
    obtain ⟨validity, -, told⟩ := bind_ok_iff.mp told
    simp only [reads, ite_self] at told
    obtain rfl := ok.inj told
    rfl

lemma Tells.interval {covered : Set Nat} {instant : Nat} {i : Interval}
    (tells : Tells covered instant ((some i).map fun i => (i.start, i.stop))) :
    (i.start ≤ instant ∧ instant < i.stop ∧ i.stop ≤ u64Max) ∧
      ∀ y, i.start ≤ y → y < i.stop → y ∈ covered :=
  ⟨⟨(tells.around _ rfl).1, (tells.around _ rfl).2, tells.fits _ rfl⟩, tells.inside _ rfl⟩

lemma covering_mem {instant : Nat} {found : List Interval}
    (answer : covering sources snapshot time instant = .ok found) {i} (mem : i ∈ found) :
    (i.start ≤ instant ∧ instant < i.stop ∧ i.stop ≤ u64Max) ∧
      ∀ y, i.start ≤ y → y < i.stop → y ∈ blackedOut sources snapshot time := by
  obtain ⟨entries, first, answer⟩ := bind_ok_iff.mp answer
  obtain ⟨events, second, answer⟩ := bind_ok_iff.mp answer
  obtain rfl := ok.inj answer
  rcases mem_append.mp mem with listed | listed
  · obtain ⟨entry, configured, gives⟩ := (gathered_ok first).2 i listed
    obtain ⟨around, inside⟩ := (coveringEntry_ok gives).interval
    exact ⟨around, fun y above below => .inl ⟨entry, configured, inside y above below⟩⟩
  obtain ⟨event, applies, gives⟩ := (gathered_ok second).2 i listed
  rcases coveringEvent_ok gives with ⟨-, tells⟩ | ⟨-, absent⟩
  · obtain ⟨around, inside⟩ := tells.interval
    exact ⟨around, fun y above below => .inr ⟨event, applies, inside y above below⟩⟩
  · cases absent

/-- No entry around an instant is missed, and no event where the clock can be moved to. -/
theorem covering_nil {instant : Nat} (answer : covering sources snapshot time instant = .ok []) :
    (∀ entry ∈ configured sources snapshot, instant ∉ entry.2.window.covered) ∧
      ((∃ there, moved time instant = some there) →
        ∀ event ∈ maintenance sources snapshot, instant ∉ event.covered time) := by
  obtain ⟨entries, first, answer⟩ := bind_ok_iff.mp answer
  obtain ⟨events, second, answer⟩ := bind_ok_iff.mp answer
  obtain ⟨rfl, rfl⟩ := append_eq_nil_iff.mp (ok.inj answer)
  have given_none {given : Option Interval} (all : ∀ i ∈ given, i ∈ ([] : List Interval)) :
      given = none := eq_none_iff_forall_not_mem.mpr fun i held => not_mem_nil (all i held)
  refine ⟨fun entry listed here => ?_, ?_⟩
  · obtain ⟨given, gives, all⟩ := (gathered_ok first).1 entry listed
    obtain rfl := given_none all
    exact (coveringEntry_ok gives).complete here rfl
  rintro ⟨there, reads⟩ event listed here
  obtain ⟨given, gives, all⟩ := (gathered_ok second).1 event listed
  obtain rfl := given_none all
  rcases coveringEvent_ok gives with ⟨-, tells⟩ | ⟨unread, -⟩
  · exact tells.complete here rfl
  · cases reads.symm.trans unread

lemma covering_nil_free {instant : Nat} (reads : moved time instant = some there)
    (answer : covering sources snapshot time instant = .ok []) :
    instant ∉ blackedOut sources snapshot time := by
  obtain ⟨entries, events⟩ := covering_nil answer
  rintro (⟨entry, listed, here⟩ | ⟨event, listed, here⟩)
  · exact entries entry listed here
  · exact events ⟨there, reads⟩ event listed here

/-- Where the clock cannot be moved to, only entries are listed. -/
theorem covering_unread {instant : Nat} {found : List Interval} (unread : moved time instant = none)
    (answer : covering sources snapshot time instant = .ok found)
    (entries : ∀ entry ∈ configured sources snapshot, instant ∉ entry.2.window.covered) :
    found = [] := by
  obtain ⟨fromEntries, first, answer⟩ := bind_ok_iff.mp answer
  obtain ⟨fromEvents, second, answer⟩ := bind_ok_iff.mp answer
  obtain rfl := ok.inj answer
  refine eq_nil_iff_forall_not_mem.mpr fun i mem => ?_
  rcases mem_append.mp mem with listed | listed
  · obtain ⟨entry, configured, gives⟩ := (gathered_ok first).2 i listed
    obtain ⟨⟨begins, ends, -⟩, inside⟩ := (coveringEntry_ok gives).interval
    exact entries entry configured (inside instant begins ends)
  obtain ⟨event, applies, gives⟩ := (gathered_ok second).2 i listed
  rcases coveringEvent_ok gives with ⟨⟨there, reads⟩, -⟩ | ⟨-, absent⟩
  · cases reads.symm.trans unread
  · cases absent

lemma covering_sound :
    Sound Interval.start Interval.stop (covering sources snapshot time)
      (blackedOut sources snapshot time) :=
  ⟨fun _ _ answer _ mem =>
      ⟨(covering_mem answer mem).1.1, (covering_mem answer mem).1.2.1⟩,
    fun _ _ answer _ mem => (covering_mem answer mem).2⟩

end Follow

end Policy
