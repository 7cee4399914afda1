import ActingCommand.Gregorian
import ActingCommand.Machine

/-!
# Local dates of kept frames

A kept frame is filed under the civil date of its capture at the machine's offset. The date is
counted from March 1 of year 0, so that a leap day ends its year, in eras of 400 years.
-/

namespace Retention

open Machine Gregorian

structure LocalTime where
  date : Date
  hour : Int
  minute : Int
  second : Int
  milli : Int

/-- A UTC instant's offset in milliseconds east of UTC, where it is known. -/
abbrev LocalOffsetMs := Nat → Option Int

def dayMs : Int := 86400000

def marchDate (year dayOfYear : Int) : Date :=
  let monthIndex := (5 * dayOfYear + 2) / 153
  let day := dayOfYear - (153 * monthIndex + 2) / 5 + 1
  let month := if monthIndex < 10 then monthIndex + 3 else monthIndex - 9
  ⟨year + (if month ≤ 2 then 1 else 0), month, day⟩

/-- The date of a day counted from 1970-01-01. No quotient here is of a negative number but that of
the era, which is Euclidean. -/
def civilDate (days : Int) : Date :=
  let shifted := days + 719468
  let era := shifted / 146097
  let dayOfEra := shifted % 146097
  let yearOfEra := (dayOfEra - dayOfEra / 1460 + dayOfEra / 36524 - dayOfEra / 146096) / 365
  let dayOfYear := dayOfEra - (365 * yearOfEra + yearOfEra / 4 - yearOfEra / 100)
  marchDate (yearOfEra + era * 400) dayOfYear

def timeOf (localMs : Int) : LocalTime :=
  let ofDay := localMs % dayMs
  ⟨civilDate (localMs / dayMs), ofDay / 3600000, ofDay / 60000 % 60, ofDay / 1000 % 60,
    ofDay % 1000⟩

def localTime (unixMs : Nat) (offset : LocalOffsetMs) : Option LocalTime := do
  let localMs ← toI64 ((← toI64 unixMs) + (← offset unixMs))
  pure (timeOf localMs)

/-- A number in at least this many characters, zeros after its sign. -/
def padded (width : Nat) (value : Int) : String :=
  let sign := if value < 0 then "-" else ""
  let digits := toString value.natAbs
  sign ++ "".pushn '0' (width - sign.length - digits.length) ++ digits

def localDate (unixMs : Nat) (offset : LocalOffsetMs) : Option String := do
  let time ← localTime unixMs offset
  pure (padded 4 time.date.year ++ "-" ++ padded 2 time.date.month ++ "-" ++
    padded 2 time.date.day)

/-- An era has centuries, these cycles of four years. A leap day ends a cycle, but that of a
century's last cycle only in the last century. -/
lemma era_cycles {n : Int} (low : 0 ≤ n) (high : n < 146097) :
    ∃ c q k d : Nat, n = 36524 * c + 1461 * q + 365 * k + d ∧ c ≤ 3 ∧ q ≤ 24 ∧ k ≤ 3 ∧ d ≤ 365 ∧
      (d = 365 → k = 3 ∧ (q = 24 → c = 3)) := by
  obtain ⟨n, rfl⟩ := Int.eq_ofNat_of_zero_le low
  have century : ∃ c r, n = 36524 * c + r ∧ c ≤ 3 ∧ (r < 36524 ∨ c = 3 ∧ r = 36524) := by
    by_cases last : n = 146096
    · exact ⟨3, 36524, by omega⟩
    · exact ⟨n / 36524, n % 36524, by omega⟩
  obtain ⟨c, r, split, most, stop⟩ := century
  by_cases leap : r % 1461 = 1460
  · exact ⟨c, r / 1461, 3, 365, by omega⟩
  · exact ⟨c, r / 1461, r % 1461 / 365, r % 1461 % 365, by omega⟩

section Era

variable {n era : Int} {c q k d : Nat} (c3 : c ≤ 3) (q24 : q ≤ 24)

include c3 q24

lemma yearOfEra_eq (k3 : k ≤ 3) (d365 : d ≤ 365)
    (split : n = 36524 * c + 1461 * q + 365 * k + d) (leap : d = 365 → k = 3 ∧ (q = 24 → c = 3)) :
    (n - n / 1460 + n / 36524 - n / 146096) / 365 = 100 * c + 4 * q + k := by
  have centuries : n / 36524 - n / 146096 = c := by interval_cases c <;> omega
  have cycles : n / 1460 = 25 * c + q + (24 * c + q + 365 * k + d) / 1460 := by omega
  have years : n - n / 1460 + n / 36524 - n / 146096 =
      365 * (100 * c + 4 * q + k) + (d - (24 * c + q + 365 * k + d) / 1460) := by omega
  rw [years]
  omega

/-- The leap days before a year of an era, counted from March. -/
lemma yearStart_era (k3 : k ≤ 3) : yearStart (100 * c + 4 * q + k + era * 400 + 1) =
    146097 * era + 36524 * c + 1461 * q + 365 * k - 719162 := by
  have fourths : (100 * c + 4 * q + k + era * 400) / 4 = 100 * era + 25 * c + q := by omega
  have hundredths : (100 * c + 4 * q + k + era * 400) / 100 = 4 * era + c := by omega
  have eras : (100 * c + 4 * q + k + era * 400) / 400 = era := by omega
  rw [yearStart, add_sub_cancel_right, fourths, hundredths, eras]
  omega

end Era

lemma march_months : ∀ leap, ∀ m : Fin 10,
    monthStart leap (m + 3) = (if leap then 60 else 59) + (153 * (m : Int) + 2) / 5 ∧
      monthLength leap (m + 3) = (153 * (m + 1 : Int) + 2) / 5 - (153 * (m : Int) + 2) / 5 := by
  decide

lemma winter_months : ∀ leap, monthStart leap 1 = 0 ∧ monthLength leap 1 = 31 ∧
    monthStart leap 2 = 31 ∧ monthLength leap 2 = if leap then 29 else 28 := by
  decide

lemma marchDate_spec {year : Int} {d : Nat} (high : d ≤ 365)
    (leap : d = 365 → isLeap (year + 1) = true) :
    (marchDate year d).Valid ∧ (marchDate year d).dayNumber = yearStart (year + 1) - 306 + d := by
  obtain ⟨m, place⟩ : ∃ m : Nat, (5 * (d : Int) + 2) / 153 = m := ⟨(5 * d + 2) / 153, by omega⟩
  simp only [marchDate, place, Date.Valid, Date.dayNumber]
  by_cases early : m < 10
  · obtain ⟨starts, length⟩ := march_months (isLeap year) ⟨m, early⟩
    have shorter := yearStart_succ year
    have month : ¬ ((m : Int) + 3 ≤ 2) := by omega
    simp only [Nat.cast_lt_ofNat, early, if_true, month, if_false, add_zero] at *
    rw [starts, length]
    split_ifs at shorter ⊢ <;> omega
  -- January and February belong to the next year.
  obtain ⟨starts, length, next, feb⟩ := winter_months (isLeap (year + 1))
  have month : m = 10 ∨ m = 11 := by omega
  rcases month with rfl | rfl
  · norm_num [starts, length]
    omega
  norm_num [next, feb]
  by_cases full : d = 365
  · rw [if_pos (leap full)]
    omega
  · split_ifs <;> omega

/-- Every day has a valid date, whose day number it is. -/
theorem civilDate_spec (days : Int) :
    (civilDate days).Valid ∧ (civilDate days).dayNumber = days := by
  have place := Int.mul_ediv_add_emod (days + 719468) 146097
  have low := Int.emod_nonneg (days + 719468) (show (146097 : Int) ≠ 0 by decide)
  have high := Int.emod_lt_of_pos (days + 719468) (show (0 : Int) < 146097 by decide)
  simp only [civilDate]
  generalize (days + 719468) / 146097 = era at *
  generalize (days + 719468) % 146097 = n at *
  obtain ⟨c, q, k, d, split, c3, q24, k3, d365, leap⟩ := era_cycles low high
  rw [yearOfEra_eq c3 q24 k3 d365 split leap]
  have fourths : (100 * c + 4 * q + k : Int) / 4 = 25 * c + q := by omega
  have hundredths : (100 * c + 4 * q + k : Int) / 100 = c := by omega
  have ofYear : n - (365 * (100 * c + 4 * q + k) + (25 * c + q) - c) = d := by omega
  rw [fourths, hundredths, ofYear]
  have full : d = 365 → isLeap (100 * c + 4 * q + k + era * 400 + 1) = true := by
    intro whole
    simp only [isLeap, decide_eq_true_eq]
    omega
  obtain ⟨valid, number⟩ := marchDate_spec d365 full
  refine ⟨valid, number.trans ?_⟩
  rw [yearStart_era c3 q24 k3]
  omega

lemma localTime_eq_some_iff {unixMs : Nat} {offset : LocalOffsetMs} {time : LocalTime} :
    localTime unixMs offset = some time ↔ ∃ ms, offset unixMs = some ms ∧ (unixMs : Int) ≤ i64Max ∧
      i64Min ≤ unixMs + ms ∧ unixMs + ms ≤ i64Max ∧ time = timeOf (unixMs + ms) := by
  have least : i64Min ≤ (unixMs : Int) := le_trans (by decide) (Int.natCast_nonneg unixMs)
  simp only [localTime, Option.bind_eq_bind, Option.bind_eq_some_iff, toI64_eq_some_iff]
  constructor
  · rintro ⟨_, ⟨rfl, -, fits⟩, ms, known, _, ⟨rfl, low, high⟩, same⟩
    exact ⟨ms, known, fits, low, high, (Option.some.inj same).symm⟩
  · rintro ⟨ms, known, fits, low, high, rfl⟩
    exact ⟨_, ⟨rfl, least, fits⟩, ms, known, _, ⟨rfl, low, high⟩, rfl⟩

/-- The local date is the Gregorian date of the local day, so a later day has a later date. -/
theorem localTime_gregorian {unixMs : Nat} {offset : LocalOffsetMs} {ms : Int}
    (known : offset unixMs = some ms) (instant : (unixMs : Int) ≤ i64Max)
    (low : i64Min ≤ unixMs + ms) (high : unixMs + ms ≤ i64Max) :
    ∃ time, localTime unixMs offset = some time ∧ time.date.Valid ∧
      time.date.dayNumber = (unixMs + ms) / dayMs ∧
      ∀ other away elsewhere later, localTime other away = some later →
        away other = some elsewhere →
        (time.date.Before later.date ↔ (unixMs + ms) / dayMs < (other + elsewhere) / dayMs) := by
  obtain ⟨valid, number⟩ := civilDate_spec ((unixMs + ms) / dayMs)
  refine ⟨_, localTime_eq_some_iff.mpr ⟨ms, known, instant, low, high, rfl⟩, valid, number, ?_⟩
  intro other away elsewhere later answer place
  obtain ⟨_, same, -, -, -, rfl⟩ := localTime_eq_some_iff.mp answer
  obtain rfl := Option.some.inj (place.symm.trans same)
  obtain ⟨good, count⟩ := civilDate_spec ((other + elsewhere) / dayMs)
  rw [timeOf, timeOf, before_iff_dayNumber_lt valid good, number, count]

/-- The first instant of 1970, an hour west. -/
theorem new_year_eve_gregorian : ∃ time, localTime 0 (fun _ => some (-3600000)) = some time ∧
    time.date = ⟨1969, 12, 31⟩ ∧ time.date.dayNumber = -1 := by
  obtain ⟨time, answer, -, number, -⟩ :=
    @localTime_gregorian 0 (fun _ => some (-3600000)) _ rfl (by decide) (by decide) (by decide)
  obtain rfl : timeOf (-3600000) = time := Option.some.inj answer
  exact ⟨_, answer, by decide, number⟩

/-- An instant past the signed numbers has no date, though the offset brings the sum back. -/
theorem late_instant_without_date :
    ((2 ^ 63 : Nat) : Int) + -1 = i64Max ∧ localTime (2 ^ 63) (fun _ => some (-1)) = none := by
  decide

end Retention
