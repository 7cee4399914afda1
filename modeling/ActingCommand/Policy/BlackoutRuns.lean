import ActingCommand.Policy.Coverage

/-!
# Runs of covered instants

The blackout around an instant and the next one after it, as maximal runs of covered instants. A
walk through more than the bounded number of intervals stops early, and a walk back past the origin
of the monotonic clock no longer sees the catalog.
-/

namespace Policy

open Machine Nearest IntervalUnion List Option Except Policy.Interval

/-! ## The next blackout -/

lemma Interval.later_stop (left right : Interval) :
    left.stop ≤ (left.later right).stop ∧ right.stop ≤ (left.later right).stop ∧
      (left.later right = left ∨ left.later right = right) := by
  unfold later order
  split
  · rename_i greater
    refine ⟨le_rfl, ?_, .inl rfl⟩
    by_contra before
    rw [Nat.compare_eq_lt.mpr (not_le.mp before)] at greater
    cases greater
  rename_i other
  refine ⟨?_, le_rfl, .inr rfl⟩
  by_contra after
  rw [Nat.compare_eq_gt.mpr (not_le.mp after)] at other
  exact other rfl

lemma lastEnding_none {found} (none : lastEnding found = none) : found = [] := by
  cases found with
  | nil => rfl
  | cons first rest => cases none

theorem lastEnding_latest {found reported} (last : lastEnding found = some reported) :
    reported ∈ found ∧ (found.map stop).max? = some reported.stop := by
  have folded (rest : List Interval) : ∀ first : Interval,
      rest.foldl later first ∈ first :: rest ∧
        ∀ i ∈ first :: rest, i.stop ≤ (rest.foldl later first).stop := by
    induction rest with
    | nil => simp
    | cons next rest ih =>
      intro first
      obtain ⟨mem, latest⟩ := ih (first.later next)
      obtain ⟨left, right, one⟩ := first.later_stop next
      simp only [foldl_cons, mem_cons] at mem latest ⊢
      refine ⟨by rcases mem with same | mem <;> grind, ?_⟩
      rintro i (rfl | rfl | listed)
      · exact left.trans (latest _ (.inl rfl))
      · exact right.trans (latest _ (.inl rfl))
      · exact latest i (.inr listed)
  cases found with
  | nil => cases last
  | cons first rest =>
    obtain rfl := some.inj last
    obtain ⟨mem, latest⟩ := folded rest first
    exact ⟨mem, max?_eq_some_iff.mpr
      ⟨List.mem_map_of_mem mem, List.forall_mem_map.mpr latest⟩⟩

section Next

variable (sources : BlackoutSources) (snapshot : InstanceSnapshot) (time : EvaluationTime)

/-- The union around an instant is followed to its end: from the latest end of the intervals
around the instant, through no more than `maxUnionSteps` further ends. -/
def Followed (instant : Nat) : Prop :=
  followEnd stop (covering sources snapshot time) (maxUnionSteps + 2) instant =
    followEnd stop (covering sources snapshot time) (maxUnionSteps + 1) instant

instance decidableFollowed (instant : Nat) : Decidable (Followed sources snapshot time instant) :=
  inferInstanceAs (Decidable (_ = _))

/-- What the next blackout is, `current` covering the evaluation's instant: the next run of
covered instants after it. -/
def NextExact (bound : Nat) (current found : Option Blackout) : Prop :=
  let after := current.elim time.unixMs Blackout.endUnixMs
  (found = none ↔ ∀ x, after < x → x ≤ bound → x ∉ blackedOut sources snapshot time) ∧
    ∀ blackout ∈ found,
      IsLeast {x ∈ blackedOut sources snapshot time | after < x ∧ x ≤ bound} blackout.startUnixMs ∧
        IsLeast {x | blackout.startUnixMs < x ∧ x ∉ blackedOut sources snapshot time}
          blackout.endUnixMs

variable {sources snapshot time}

lemma unionEnd_first_free {instant stop : Nat} {found reported}
    (origin : time.monotonicMs ≤ time.unixMs) (forward : time.unixMs ≤ instant)
    (followed : Followed sources snapshot time instant)
    (asked : covering sources snapshot time instant = .ok found)
    (last : lastEnding found = some reported)
    (answer : unionEnd sources snapshot time reported.stop = .ok stop) :
    IsLeast {x | instant < x ∧ x ∉ blackedOut sources snapshot time} stop ∧
      ∀ x, instant ≤ x → x < stop → x ∈ blackedOut sources snapshot time := by
  obtain ⟨mem, latest⟩ := lastEnding_latest last
  obtain ⟨⟨before, after, fits⟩, inside⟩ := covering_mem asked mem
  have step := followEnd_of_latest asked latest after
  have settled : followEnd Interval.stop (covering sources snapshot time) (maxUnionSteps + 1)
      reported.stop = .ok stop := by
    rw [← step, followed, step]
    exact answer
  have free := followEnd_settled covering_sound answer settled
  obtain ⟨le, covered⟩ := followEnd_inside covering_sound answer
  have small := followEnd_le covering_sound
    (fun _ _ asked _ mem => (covering_mem asked mem).1.2.2) answer fits
  obtain ⟨there, reads⟩ := moved_forward origin (forward.trans (after.le.trans le)) small
  have upto (x : Nat) (above : instant ≤ x) (below : x < stop) :
      x ∈ blackedOut sources snapshot time := by
    rcases lt_or_ge x reported.stop with here | later
    · exact inside x (before.trans above) here
    · exact covered x later below
  refine ⟨⟨⟨after.trans_le le, covering_nil_free reads free⟩, ?_⟩, upto⟩
  rintro x ⟨above, uncovered⟩
  by_contra below
  exact uncovered (upto x above.le (not_le.mp below))

lemma blackoutAt_cases {current} (answer : blackoutAt sources snapshot time = .ok current) :
    current = none ∧ covering sources snapshot time time.unixMs = .ok [] ∨
      ∃ found reported first start stop, covering sources snapshot time time.unixMs = .ok found ∧
        lastEnding found = some reported ∧ (found.map Interval.start).min? = some first ∧
        unionStart sources snapshot time first = .ok start ∧
        unionEnd sources snapshot time reported.stop = .ok stop ∧
        current = some ⟨reported.id, reported.source, start, stop⟩ := by
  obtain ⟨found, asked, answer⟩ := bind_ok_iff.mp answer
  split at answer
  · rename_i empty
    obtain rfl := lastEnding_none empty
    exact .inl ⟨(ok.inj answer).symm, asked⟩
  rename_i reported last
  obtain ⟨start, begins, answer⟩ := bind_ok_iff.mp answer
  obtain ⟨stop, ends, answer⟩ := bind_ok_iff.mp answer
  cases earliest : (found.map Interval.start).min? with
  | none =>
    obtain rfl : found = [] := by simpa [min?_eq_none_iff] using earliest
    cases last
  | some first =>
    rw [earliest] at begins
    exact .inr ⟨found, reported, first, start, stop, asked, last, earliest, begins, ends,
      (ok.inj answer).symm⟩

/-- Where the blackout around the evaluation's instant ends, or that instant itself. -/
theorem blackoutAt_first_free {current} (origin : time.monotonicMs ≤ time.unixMs)
    (followed : Followed sources snapshot time time.unixMs)
    (answer : blackoutAt sources snapshot time = .ok current) :
    IsLeast {x | time.unixMs ≤ x ∧ x ∉ blackedOut sources snapshot time}
      (current.elim time.unixMs Blackout.endUnixMs) := by
  rcases blackoutAt_cases answer with
    ⟨rfl, empty⟩ | ⟨found, reported, first, start, stop, asked, last, -, -, ends, rfl⟩
  · obtain ⟨there, reads⟩ := moved_forward origin le_rfl time.fits.1
    exact ⟨⟨le_rfl, covering_nil_free reads empty⟩, fun x h => h.1⟩
  obtain ⟨⟨⟨after, free⟩, -⟩, upto⟩ :=
    unionEnd_first_free origin le_rfl followed asked last ends
  refine ⟨⟨after.le, free⟩, ?_⟩
  rintro x ⟨above, uncovered⟩
  by_contra below
  exact uncovered (upto x above (not_le.mp below))

/-- The next blackout is the next run of covered instants after the one around the evaluation's
instant. -/
theorem nextBlackoutStart_exact {bound : Nat} {found : Option Blackout} (fits : bound ≤ u64Max)
    (origin : time.monotonicMs ≤ time.unixMs)
    (followed : Followed sources snapshot time time.unixMs)
    (followedNext : ∀ blackout ∈ found, Followed sources snapshot time blackout.startUnixMs)
    (answer : nextBlackoutStart sources snapshot time bound = .ok found) :
    ∃ current, blackoutAt sources snapshot time = .ok current ∧
      IsLeast {x | time.unixMs ≤ x ∧ x ∉ blackedOut sources snapshot time}
        (current.elim time.unixMs Blackout.endUnixMs) ∧
      NextExact sources snapshot time bound current found := by
  obtain ⟨current, now, answer⟩ := bind_ok_iff.mp answer
  have free := blackoutAt_first_free origin followed now
  refine ⟨current, now, free, ?_⟩
  unfold NextExact
  simp only at answer ⊢
  generalize current.elim time.unixMs Blackout.endUnixMs = after at answer free ⊢
  split at answer
  · rename_i reached
    obtain rfl := ok.inj answer
    exact ⟨⟨fun _ x above below => by omega, fun _ => rfl⟩, by simp⟩
  rename_i ahead
  obtain ⟨earliest, starts, answer⟩ := bind_ok_iff.mp answer
  have near := earliestStartAfter_isNext origin free.1.1 (by omega) starts
  split at answer
  · rename_i refused
    obtain rfl := ok.inj answer
    refine ⟨⟨fun _ x above below covered => ?_, fun _ => rfl⟩, by simp⟩
    obtain ⟨s, begins, later, le⟩ := exists_start free.1.2 above covered
    cases earliest with
    | none => exact absurd later (not_lt_of_ge (near s begins))
    | some e =>
      have first : (e : Int) ≤ s := near.2 ⟨begins, later⟩
      simp at refused
      omega
  rename_i start taken
  obtain ⟨intervals, asked, answer⟩ := bind_ok_iff.mp answer
  obtain ⟨reported, last, answer⟩ := bind_ok_iff.mp answer
  obtain ⟨stop, ends, answer⟩ := bind_ok_iff.mp answer
  obtain rfl := ok.inj answer
  obtain ⟨rfl, inside⟩ := filter_eq_some_iff.mp taken
  have inside : start ≤ bound := by simpa using inside
  have later : after < start := by exact_mod_cast near.1.2
  have covered := start_blackedOut near.1.1
  refine ⟨⟨by simp, fun none => absurd covered (none start later inside)⟩, ?_⟩
  rintro _ ⟨⟩
  refine ⟨⟨⟨covered, later, inside⟩, ?_⟩, ?_⟩
  · rintro x ⟨here, above, -⟩
    obtain ⟨s, begins, later, le⟩ := exists_start free.1.2 above here
    have first : (start : Int) ≤ s := near.2 ⟨begins, later⟩
    exact_mod_cast first.trans le
  · exact (unionEnd_first_free origin (free.1.1.trans later.le) (followedNext _ rfl) asked
      (okOr_ok_iff.mp last) ends).1

/-! ## The blackout around an instant -/

variable (sources snapshot time) in
/-- The union around an instant is followed to its start. -/
def FollowedBack (instant : Nat) : Prop :=
  followStart start (covering sources snapshot time) (maxUnionSteps + 2) (instant + 1) =
    followStart start (covering sources snapshot time) (maxUnionSteps + 1) (instant + 1)

instance decidableFollowedBack (instant : Nat) :
    Decidable (FollowedBack sources snapshot time instant) := inferInstanceAs (Decidable (_ = _))

variable (sources snapshot time) in
/-- The maximal run of covered instants around the evaluation's. -/
def RunExact (current : Option Blackout) : Prop :=
  (current = none ↔ time.unixMs ∉ blackedOut sources snapshot time) ∧
    ∀ blackout ∈ current,
      IsLeast {x | time.unixMs < x ∧ x ∉ blackedOut sources snapshot time} blackout.endUnixMs ∧
        IsLeast {s | ∀ y, s ≤ y → y ≤ time.unixMs → y ∈ blackedOut sources snapshot time}
          blackout.startUnixMs

/-- The run is exact unless the walk back asks about an instant before the monotonic clock's
origin that only the catalog covers. -/
theorem blackoutAt_exact_iff {current : Option Blackout} (origin : time.monotonicMs ≤ time.unixMs)
    (followed : Followed sources snapshot time time.unixMs)
    (followedBack : FollowedBack sources snapshot time time.unixMs)
    (answer : blackoutAt sources snapshot time = .ok current) :
    RunExact sources snapshot time current ↔
      ∀ y, AskedBack Interval.start (covering sources snapshot time) time.unixMs y →
        y + time.monotonicMs < time.unixMs →
        (∃ event ∈ maintenance sources snapshot, y ∈ event.covered time) →
        ∃ entry ∈ configured sources snapshot, y ∈ entry.2.window.covered := by
  obtain ⟨there, reads⟩ := moved_forward origin le_rfl time.fits.1
  rcases blackoutAt_cases answer with
    ⟨rfl, empty⟩ | ⟨found, reported, first, start, stop, asked, last, earliest, begins, ends, rfl⟩
  · have free := covering_nil_free reads empty
    refine ⟨fun _ y path early => ?_, fun _ => ⟨⟨fun _ => free, fun _ => rfl⟩, by simp⟩⟩
    cases path with
    | here => omega
    | back asked earliest =>
      cases empty.symm.trans asked
      cases earliest
  obtain ⟨mem, -⟩ := lastEnding_latest last
  obtain ⟨⟨before, after, -⟩, inside⟩ := covering_mem asked mem
  have covered := inside _ before after
  obtain ⟨stopFree, -⟩ := unionEnd_first_free origin le_rfl followed asked last ends
  have le : first ≤ time.unixMs := by
    have least := (min?_eq_some_iff.mp earliest).2 _ (List.mem_map_of_mem mem)
    exact least.trans before
  have step := followStart_of_earliest asked earliest le
  have walked : followStart Interval.start (covering sources snapshot time) (maxUnionSteps + 1)
      (time.unixMs + 1) = .ok start := by
    rw [step]
    exact begins
  have stopped := followStart_stopped covering_sound walked (followedBack.trans walked)
  obtain ⟨upto, run⟩ := followStart_inside covering_sound walked
  have exact_iff : RunExact sources snapshot time
        (some ⟨reported.id, reported.source, start, stop⟩) ↔
      IsLeast {s | ∀ y, s ≤ y → y ≤ time.unixMs → y ∈ blackedOut sources snapshot time} start := by
    constructor
    · exact fun h => (h.2 _ rfl).2
    · intro h
      refine ⟨⟨by simp, fun free => absurd covered free⟩, ?_⟩
      rintro _ ⟨⟩
      exact ⟨stopFree, h⟩
  rw [exact_iff]
  constructor
  · rintro ⟨-, least⟩ y path early ⟨event, listed, here⟩
    by_contra alone
    obtain ⟨found', asked', only⟩ := stopped.every y path
    have unread : moved time y = none := dif_neg (by omega)
    have nothing := covering_unread unread asked'
      fun entry listed here => alone ⟨entry, listed, here⟩
    have last := only nothing
    have longer : start ≤ y := by
      refine least fun z above below => ?_
      rcases above.eq_or_lt with rfl | later
      · exact .inr ⟨event, listed, here⟩
      · exact run z (by omega) (by omega)
    omega
  · intro configuredToo
    refine ⟨fun y above below => run y above (by omega), fun s all => ?_⟩
    by_contra earlier
    rcases stopped.last with rfl | ⟨last, rfl, path, empty⟩
    · exact earlier (Nat.zero_le s)
    have here := all last (by omega) (by omega)
    cases reads' : moved time last with
    | some there' => exact covering_nil_free reads' empty here
    | none =>
      have early : last + time.monotonicMs < time.unixMs := by
        by_contra late
        have fits : last ≤ u64Max ∧ 0 ≤ (time.monotonicMs + (last - time.unixMs) : Int) ∧
            (time.monotonicMs + (last - time.unixMs) : Int) ≤ u64Max := by
          have := time.fits
          omega
        cases reads'.symm.trans (dif_pos fits)
      obtain ⟨entries, -⟩ := covering_nil empty
      have some_entry : ∃ entry ∈ configured sources snapshot, last ∈ entry.2.window.covered := by
        rcases here with here | here
        · exact here
        · exact configuredToo last path early here
      obtain ⟨entry, listed, covers⟩ := some_entry
      exact entries entry listed covers

end Next

namespace Sample

def player : InstanceSnapshot := ⟨"one", "eu", "game"⟩

def hostOnly (window : BlackoutWindow) : BlackoutSources := ⟨[⟨"entry", window⟩], ∅, []⟩

/-- A maintenance at an instant on the server's clock. -/
def upkeep (id : String) (instant durationMs : Nat) (fits : instant ≤ u64Max) : TimelineEvent :=
  ⟨id, .ofGame "game", .maintenance, ⟨.server 0 0 0, .once instant fits⟩, durationMs,
    some ⟨0, none, by decide⟩⟩

lemma upkeep_covered {id : String} {instant durationMs y : Nat} {fits} {time : EvaluationTime}
    (covered : y ∈ (upkeep id instant durationMs fits).covered time) :
    instant ≤ y ∧ y < instant + durationMs := by
  obtain ⟨_, _, _, ⟨z, ⟨_, same⟩, rfl⟩, before, _, inside, _⟩ := covered
  have same : (z : Int) = instant := same
  simp only [upkeep, ClockSource.unixDeltaMs] at before inside
  omega

/-- Two entries that touch with a maintenance across their border, another one where the second
ends, and an entry apart. -/
def midday : BlackoutSources where
  host := [⟨"early", .once 100 140 (by decide) (by decide)⟩,
    ⟨"late", .once 140 200 (by decide) (by decide)⟩,
    ⟨"evening", .once 300 400 (by decide) (by decide)⟩]
  instances := ∅
  catalog := [upkeep "update" 130 15 (by decide), upkeep "patch" 200 50 (by decide)]

def noon : EvaluationTime := ⟨150, 10, by decide⟩

theorem midday_next : nextBlackoutStart midday player noon 1000 =
      .ok (some ⟨"evening", .host, 300, 400⟩) ∧
    ∃ current, blackoutAt midday player noon = .ok current ∧
      IsLeast {x | 150 ≤ x ∧ x ∉ blackedOut midday player noon}
        (current.elim 150 Blackout.endUnixMs) ∧
      NextExact midday player noon 1000 current (some ⟨"evening", .host, 300, 400⟩) := by
  have answer : nextBlackoutStart midday player noon 1000 =
      .ok (some ⟨"evening", .host, 300, 400⟩) := by decide +kernel
  refine ⟨answer, nextBlackoutStart_exact (by decide) (by decide) ?_ ?_ answer⟩
  · decide +kernel
  · rintro _ ⟨⟩
    decide +kernel

def hour : Nat := 3600000

def dayLength : Nat := 24 * hour

/-- Every day of the week, the whole day. -/
def endless : BlackoutSources := hostOnly (.weekly [1, 2, 3, 4, 5, 6, 7] 0 0 0 (by decide))

/-- A maintenance at 10 on the server's clock, for five milliseconds. -/
def once : BlackoutSources where
  host := []
  instances := ∅
  catalog := [upkeep "update" 10 5 (by decide)]

/-- Without an end that 1024 intervals reach, and with a monotonic clock that cannot be moved
forward, a covered instant is missed. -/
theorem next_missed :
    (∃ current, blackoutAt endless player ⟨0, 0, by decide⟩ = .ok current ∧
      nextBlackoutStart endless player ⟨0, 0, by decide⟩ (1025 * dayLength + 1) = .ok none ∧
      ¬ NextExact endless player ⟨0, 0, by decide⟩ (1025 * dayLength + 1) current none) ∧
    ∃ current, blackoutAt once player ⟨0, u64Max, by decide⟩ = .ok current ∧
      nextBlackoutStart once player ⟨0, u64Max, by decide⟩ 20 = .ok none ∧
      ¬ NextExact once player ⟨0, u64Max, by decide⟩ 20 current none := by
  refine ⟨⟨some ⟨"entry", .host, 0, 1025 * dayLength⟩, by decide +kernel, by decide +kernel, ?_⟩,
    ⟨none, by rfl, by rfl, ?_⟩⟩
  · intro exact
    refine exact.1.mp rfl (1025 * dayLength + 1) (Nat.lt_succ_self _) le_rfl ?_
    exact .inl ⟨_, mem_cons_self, 1025, by decide, by decide, by decide⟩
  intro exact
  refine exact.1.mp rfl 10 (by decide) (by decide) (.inr ⟨_, mem_cons_self, ?_⟩)
  refine ⟨_, rfl, 10, ⟨10, ⟨by decide, rfl⟩, rfl⟩, by decide, by decide, by decide, by simp⟩

theorem midday_run : blackoutAt midday player noon = .ok (some ⟨"late", .host, 100, 250⟩) ∧
    RunExact midday player noon (some ⟨"late", .host, 100, 250⟩) := by
  have answer : blackoutAt midday player noon = .ok (some ⟨"late", .host, 100, 250⟩) := by
    decide +kernel
  refine ⟨answer, (blackoutAt_exact_iff (by decide) (by decide +kernel) (by decide +kernel)
    answer).mpr ?_⟩
  -- Before the clock's origin there is the first maintenance alone, inside the first entry.
  rintro y - early ⟨event, listed, covered⟩
  refine ⟨_, mem_cons_self, ?_⟩
  have listed := (mem_filter.mp listed).1
  simp only [noon, midday, mem_cons, not_mem_nil, or_false] at early listed
  rcases listed with rfl | rfl
  · have := upkeep_covered covered
    exact ⟨by omega, by omega⟩
  · have := upkeep_covered covered
    omega

/-- A maintenance every hour for an hour on the server's clock, until noon. -/
def hourly : BlackoutSources where
  host := []
  instances := ∅
  catalog := [⟨"update", .ofGame "game", .maintenance,
    ⟨.server 0 0 0, .interval hour 0 (by decide) (by decide)⟩, hour,
    some ⟨0, some (12 * hour), by decide⟩⟩]

/-- Ten past ten, five minutes after the monotonic clock's origin. -/
def tenPast : EvaluationTime := ⟨10 * hour + 600000, 300000, by decide⟩

lemma hourly_covered {y : Nat} (before : y < 12 * hour) : y ∈ blackedOut hourly player tenPast := by
  have occurs : ((y / hour * hour : Nat) : Int) ∈
      ClockSchedule.occurrences ⟨.server 0 0 0, .interval hour 0 (by decide) (by decide)⟩
        tenPast := by
    refine ⟨y / hour * hour, ⟨?_, y / hour, by push_cast; omega⟩, by simp [ClockSource.unixDeltaMs]⟩
    simp only [hour, u64Max] at before ⊢
    omega
  refine .inr ⟨_, mem_cons_self, _, rfl, _, occurs, ?_, Nat.zero_le y, ?_, ?_⟩
  · simp only [hour]
    omega
  · simp only [hour]
    omega
  · rintro ends ⟨⟩
    exact before

theorem hourly_cut : ¬ ∀ (sources : BlackoutSources) (snapshot : InstanceSnapshot)
    (time : EvaluationTime) (current : Option Blackout), time.monotonicMs ≤ time.unixMs →
      Followed sources snapshot time time.unixMs → FollowedBack sources snapshot time time.unixMs →
      blackoutAt sources snapshot time = .ok current → RunExact sources snapshot time current := by
  intro all
  have run := all hourly player tenPast (some ⟨"update", .catalog, 10 * hour, 12 * hour⟩)
    (by decide) (by decide +kernel) (by decide +kernel) (by decide +kernel)
  have longer : 10 * hour ≤ 0 := (run.2 _ rfl).2.2 fun y _ below =>
    hourly_covered (below.trans_lt (by decide))
  exact absurd longer (by decide)

end Sample

end Policy
