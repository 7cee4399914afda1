import ActingCommand.Policy.Clock

/-!
# The next start

A weekly interval starts on its weekdays at one time of the local day, and its next start is
searched over one week and the day the search began. Of several sources the earliest next start
is taken.
-/

namespace Policy

open Machine Nearest List Except

/-- The local days a weekly start is searched over: one week and the day it began. -/
def weeklySearchDays : Nat := 8

def searchedDays (day : Int) : List Int :=
  (List.range (weeklySearchDays + 1)).map fun n : Nat => day + n

def weeklyStart (opensMs offsetMs localDay : Int) : Int := localDay * dayMs + opensMs - offsetMs

def weeklyStarts (weekdays : List Nat) (opensMs offsetMs : Int) : Set Int :=
  {s | ∃ localDay, (weekday localDay).toNat ∈ weekdays ∧ weeklyStart opensMs offsetMs localDay = s}

/-- The days on which a weekly interval starts at or after an instant. -/
def startsFrom (weekdays : List Nat) (opensMs offsetMs bound localDay : Int) : Bool :=
  (weekday localDay).toNat ∈ weekdays ∧ bound ≤ weeklyStart opensMs offsetMs localDay

lemma startsFrom_iff {weekdays : List Nat} {opensMs offsetMs bound localDay : Int} :
    startsFrom weekdays opensMs offsetMs bound localDay = true ↔
      (weekday localDay).toNat ∈ weekdays ∧ bound ≤ weeklyStart opensMs offsetMs localDay :=
  decide_eq_true_iff

lemma weekday_sub_week (localDay : Int) : weekday (localDay - 7) = weekday localDay := by
  simp only [weekday]
  omega

lemma weeklyStart_le_iff {opensMs offsetMs day day' : Int} :
    weeklyStart opensMs offsetMs day ≤ weeklyStart opensMs offsetMs day' ↔ day ≤ day' := by
  simp only [weeklyStart, dayMs]
  omega

section Search

variable {day : Int} {weekdays : List Nat} {opensMs offsetMs bound : Int}

/-- An accepted day has one in the search at or before it. -/
theorem exists_searched (opens : 0 ≤ opensMs ∧ opensMs < dayMs)
    (begins : day * dayMs ≤ bound + offsetMs) (ends : bound + offsetMs < (day + 2) * dayMs)
    {localDay : Int} (accepted : startsFrom weekdays opensMs offsetMs bound localDay = true) :
    ∃ searched ∈ searchedDays day, startsFrom weekdays opensMs offsetMs bound searched = true ∧
      searched ≤ localDay := by
  obtain ⟨listed, late⟩ := startsFrom_iff.mp accepted
  have first : day ≤ localDay := by
    simp only [weeklyStart, dayMs] at late opens begins
    omega
  by_cases beyond : day + weeklySearchDays < localDay
  · -- A day accepted beyond the search is accepted a week earlier.
    have before : startsFrom weekdays opensMs offsetMs bound (localDay - 7) = true := by
      refine startsFrom_iff.mpr ⟨by rwa [weekday_sub_week], ?_⟩
      simp only [weeklyStart, dayMs, weeklySearchDays] at ends beyond ⊢
      omega
    obtain ⟨searched, mem, held, le⟩ := exists_searched opens begins ends before
    exact ⟨searched, mem, held, by omega⟩
  refine ⟨localDay, List.mem_map.mpr ⟨(localDay - day).toNat, ?_, ?_⟩, accepted, le_rfl⟩
  · exact mem_range.mpr (by omega)
  · omega
termination_by (localDay - day).toNat
decreasing_by
  simp only [weeklySearchDays] at beyond
  omega

lemma searchedDays_sorted (day : Int) : (searchedDays day).Pairwise (· < ·) := by
  refine pairwise_map.mpr (pairwise_lt_range.imp ?_)
  intro a b h
  omega

/-- The first accepted day of the search gives the first start of all. -/
theorem isNext_searchedDays (opens : 0 ≤ opensMs ∧ opensMs < dayMs)
    (begins : day * dayMs ≤ bound + offsetMs) (ends : bound + offsetMs < (day + 2) * dayMs) :
    IsNext (weeklyStarts weekdays opensMs offsetMs) (bound - 1)
      (((searchedDays day).find? (startsFrom weekdays opensMs offsetMs bound)).map
        (weeklyStart opensMs offsetMs)) := by
  have accepts {localDay : Int} (listed : (weekday localDay).toNat ∈ weekdays)
      (after : bound - 1 < weeklyStart opensMs offsetMs localDay) :=
    exists_searched opens begins ends (startsFrom_iff.mpr ⟨listed, Int.sub_one_lt_iff.mp after⟩)
  cases found : (searchedDays day).find? (startsFrom weekdays opensMs offsetMs bound) with
  | none =>
    rintro _ ⟨localDay, listed, rfl⟩
    by_contra after
    obtain ⟨searched, mem, held, -⟩ := accepts listed (Int.lt_of_not_ge after)
    exact find?_eq_none.mp found searched mem held
  | some first =>
    obtain ⟨held, before, rest, split, refused⟩ := find?_eq_some_iff_append.mp found
    obtain ⟨listed, bounded⟩ := startsFrom_iff.mp held
    refine ⟨⟨⟨first, listed, rfl⟩, Int.sub_one_lt_iff.mpr bounded⟩, ?_⟩
    rintro _ ⟨⟨localDay, listed', rfl⟩, after⟩
    obtain ⟨searched, mem, held', le⟩ := accepts listed' after
    refine weeklyStart_le_iff.mpr (le_trans ?_ le)
    have sorted := searchedDays_sorted day
    rw [split] at mem sorted
    rcases mem_append.mp mem with earlier | later
    · have turned := refused searched earlier
      simp [held'] at turned
    rcases mem_cons.mp later with rfl | later
    · exact le_rfl
    · exact ((pairwise_cons.mp (pairwise_append.mp sorted).2.1).1 searched later).le

end Search

/-! ## The earliest of several sources -/

lemma isNext_minWake {S T : Set Int} {now : Int} {x y : Option Nat}
    (hx : IsNext S now (x.map Nat.cast)) (hy : IsNext T now (y.map Nat.cast)) :
    IsNext (S ∪ T) now ((minWake x y).map Nat.cast) := by
  cases x with
  | none =>
    cases y with
    | none =>
      rintro b (hb | hb)
      · exact hx b hb
      · exact hy b hb
    | some v =>
      refine ⟨⟨Or.inr hy.1.1, hy.1.2⟩, ?_⟩
      rintro b ⟨hb | hb, after⟩
      · exact absurd after (not_lt_of_ge (hx b hb))
      · exact hy.2 ⟨hb, after⟩
  | some u =>
    cases y with
    | none =>
      refine ⟨⟨Or.inl hx.1.1, hx.1.2⟩, ?_⟩
      rintro b ⟨hb | hb, after⟩
      · exact hx.2 ⟨hb, after⟩
      · exact absurd after (not_lt_of_ge (hy b hb))
    | some v =>
      have least : IsLeast ({b ∈ S | now < b} ∪ {b ∈ T | now < b}) (min (u : Int) v) := hx.union hy
      rw [← Set.sep_union] at least
      simpa [minWake, IsNext] using least

/-- The loop over sources that keeps the earliest of their next starts. -/
def earliestFrom {α : Type} (next : α → Evaluated (Option Nat)) :
    List α → Option Nat → Evaluated (Option Nat)
  | [], earliest => pure earliest
  | source :: rest, earliest => do
    let start ← next source
    earliestFrom next rest (minWake earliest start)

lemma isNext_earliestFrom {α : Type} {next} {starts : α → Set Int}
    {now : Int} {sources : List α} {S : Set Int} {earliest found : Option Nat}
    (each : ∀ source ∈ sources, ∀ start, next source = .ok start →
      IsNext (starts source) now (start.map Nat.cast))
    (before : IsNext S now (earliest.map Nat.cast))
    (answer : earliestFrom next sources earliest = .ok found) :
    IsNext (S ∪ {s | ∃ source ∈ sources, s ∈ starts source}) now (found.map Nat.cast) := by
  induction sources generalizing S earliest with
  | nil =>
    obtain rfl := ok.inj answer
    simpa using before
  | cons source rest ih =>
    obtain ⟨start, first, answer⟩ := bind_ok_iff.mp answer
    have later := ih (fun other listed => each other (mem_cons_of_mem _ listed))
      (isNext_minWake before (each source mem_cons_self start first)) answer
    simpa [Set.union_assoc, Set.ofPred_or] using later

end Policy
