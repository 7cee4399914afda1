import Mathlib

/-!
# The tracked pacing value

Each evaluation of a scope gives a value in basis points, or none when nothing is known, and a scope
follows it: down once it was lower for the degrade-sustain time, and up once it was higher by the
hysteresis for the recover-sustain time.
-/

namespace Performance

def fullBp : Nat := 10000

structure PacingSettings where
  degradeSustainMs : Nat
  recoverSustainMs : Nat
  hysteresisBp : Nat

structure Tracker where
  rEff : Nat := fullBp
  downSince : Option Nat := none
  upSince : Option Nat := none

structure Evaluation where
  now : Nat
  input : Option Nat
  clockJump : Bool

/-- Nothing known counts as the full value. -/
def Evaluation.value (evaluation : Evaluation) : Nat := evaluation.input.getD fullBp

variable (pacing : PacingSettings)

/-- The tracker after an evaluation, and whether that was an idle recovery. -/
def Tracker.follow (tracker : Tracker) (evaluation : Evaluation) : Tracker × Bool :=
  if evaluation.clockJump then ({ tracker with downSince := none, upSince := none }, false)
  else
    let idle := evaluation.input.isNone
    let value := evaluation.value
    let after : Tracker :=
      if !idle ∧ value < tracker.rEff then
        let since := tracker.downSince.getD evaluation.now
        if pacing.degradeSustainMs ≤ evaluation.now - since then ⟨value, none, none⟩
        else ⟨tracker.rEff, some since, none⟩
      else if tracker.rEff < value ∧ tracker.rEff + pacing.hysteresisBp ≤ value then
        let since := tracker.upSince.getD evaluation.now
        if pacing.recoverSustainMs ≤ evaluation.now - since
        then ⟨max (value - pacing.hysteresisBp) tracker.rEff, none, none⟩
        else ⟨tracker.rEff, none, some since⟩
      else ⟨tracker.rEff, none, none⟩
    (after, idle)

/-- The tracker after a history of evaluations, the newest first. -/
def track : List Evaluation → Tracker
  | [] => {}
  | evaluation :: earlier => ((track earlier).follow pacing evaluation).1

/-- No jump, and a known input below the tracked value. -/
def Evaluation.Below (evaluation : Evaluation) (tracked : Nat) : Prop :=
  evaluation.clockJump = false ∧ ∃ value, evaluation.input = some value ∧ value < tracked

/-- No jump, and an input above the tracked value by at least the hysteresis. -/
def Evaluation.Above (evaluation : Evaluation) (tracked : Nat) : Prop :=
  evaluation.clockJump = false ∧ tracked < evaluation.value ∧
    tracked + pacing.hysteresisBp ≤ evaluation.value

/-- From the one at the instant on every evaluation was so, against the value tracked then. -/
inductive Since (so : Evaluation → Nat → Prop) : Nat → List Evaluation → Prop
  | first {evaluation earlier} : so evaluation (track pacing earlier).rEff →
      Since so evaluation.now (evaluation :: earlier)
  | next {instant evaluation earlier} : so evaluation (track pacing earlier).rEff →
      Since so instant earlier → Since so instant (evaluation :: earlier)

variable (tracker : Tracker) (evaluation : Evaluation)

/-- What an evaluation makes of the tracker. -/
inductive Follows : Tracker → Prop
  | fell (below : evaluation.Below tracker.rEff)
      (ran : pacing.degradeSustainMs ≤ evaluation.now - tracker.downSince.getD evaluation.now) :
      Follows ⟨evaluation.value, none, none⟩
  | falling (below : evaluation.Below tracker.rEff)
      (short : evaluation.now - tracker.downSince.getD evaluation.now < pacing.degradeSustainMs) :
      Follows ⟨tracker.rEff, some (tracker.downSince.getD evaluation.now), none⟩
  | rose (above : evaluation.Above pacing tracker.rEff)
      (ran : pacing.recoverSustainMs ≤ evaluation.now - tracker.upSince.getD evaluation.now) :
      Follows ⟨evaluation.value - pacing.hysteresisBp, none, none⟩
  | rising (above : evaluation.Above pacing tracker.rEff)
      (short : evaluation.now - tracker.upSince.getD evaluation.now < pacing.recoverSustainMs) :
      Follows ⟨tracker.rEff, none, some (tracker.upSince.getD evaluation.now)⟩
  | level (low : ¬ evaluation.Below tracker.rEff) (high : ¬ evaluation.Above pacing tracker.rEff) :
      Follows ⟨tracker.rEff, none, none⟩

lemma follow_follows :
    Follows pacing tracker evaluation (tracker.follow pacing evaluation).1 := by
  unfold Tracker.follow
  split
  · rename_i jump
    exact .level (by simp [Evaluation.Below, jump]) (by simp [Evaluation.Above, jump])
  rename_i still
  have still := eq_false_of_ne_true still
  dsimp only
  split
  · rename_i lower
    obtain ⟨value, known⟩ := Option.isSome_iff_exists.mp (by simpa using lower.1)
    have below : evaluation.Below tracker.rEff :=
      ⟨still, value, known, by simpa [Evaluation.value, known] using lower.2⟩
    split
    · exact .fell below ‹_›
    · exact .falling below (not_le.mp ‹_›)
  rename_i lower
  split
  · rename_i higher
    split
    · rw [max_eq_left (by omega)]
      exact .rose ⟨still, higher⟩ ‹_›
    · exact .rising ⟨still, higher⟩ (not_le.mp ‹_›)
  · rename_i high
    refine .level ?_ fun above => high above.2
    rintro ⟨-, value, known, less⟩
    exact lower (by simp [Evaluation.value, known, less])

variable {pacing tracker evaluation} {after : Tracker} {earlier : List Evaluation}

lemma Evaluation.Below.lower {tracked : Nat} (below : evaluation.Below tracked) :
    evaluation.value < tracked := by
  obtain ⟨-, value, known, lower⟩ := below
  simpa [Evaluation.value, known] using lower

section Timers

variable {so : Evaluation → Nat → Prop} {instant : Nat}

lemma Since.now_le {latest : Nat} (since : Since pacing so instant earlier)
    (clock : ∀ evaluation ∈ earlier, evaluation.now ≤ latest) : instant ≤ latest := by
  induction since with
  | first => exact clock _ List.mem_cons_self
  | next _ _ ih => exact ih (List.forall_mem_cons.mp clock).2

/-- A timer that the evaluation keeps or starts. -/
lemma since_getD {timer : Option Nat} (now : so evaluation (track pacing earlier).rEff)
    (running : ∀ instant, timer = some instant → Since pacing so instant earlier) :
    Since pacing so (timer.getD evaluation.now) (evaluation :: earlier) := by
  cases timer with
  | none => exact .first now
  | some instant => exact .next now (running instant rfl)

/-- A timer that runs has run since its instant. -/
lemma track_since :
    (∀ instant, (track pacing earlier).downSince = some instant →
      Since pacing Evaluation.Below instant earlier) ∧
    ∀ instant, (track pacing earlier).upSince = some instant →
      Since pacing (Evaluation.Above pacing) instant earlier := by
  induction earlier with
  | nil => simp [track]
  | cons evaluation earlier ih =>
    rw [track]
    have step := follow_follows pacing (track pacing earlier) evaluation
    generalize ((track pacing earlier).follow pacing evaluation).1 = after at step ⊢
    cases step with
    | fell | rose | level => simp
    | falling below => simpa using since_getD below ih.1
    | rising above => simpa using since_getD above ih.2

end Timers

/-! ## A constant input -/

/-- The known input stays the same, with no jump. -/
def Evaluation.Steady (value : Nat) (evaluation : Evaluation) : Prop :=
  evaluation.input = some value ∧ evaluation.clockJump = false

/-- The tracked value needs no further move. -/
def Settled (pacing : PacingSettings) (value tracked : Nat) : Prop :=
  value ≤ tracked + pacing.hysteresisBp ∧ tracked ≤ value

/-- The tracked value is settled, or the timer that moves it has run since the instant. -/
def Nearing (pacing : PacingSettings) (value instant : Nat) (tracker : Tracker) : Prop :=
  Settled pacing value tracker.rEff ∨
    value < tracker.rEff ∧ (∃ since ≤ instant, tracker.downSince = some since) ∨
    tracker.rEff + pacing.hysteresisBp < value ∧ ∃ since ≤ instant, tracker.upSince = some since

variable {value instant : Nat}

lemma Settled.follow (settled : Settled pacing value tracker.rEff)
    (steady : evaluation.Steady value) (step : Follows pacing tracker evaluation after) :
    after.rEff = tracker.rEff := by
  have same : evaluation.value = value := by simp [Evaluation.value, steady.1]
  obtain ⟨near, least⟩ := settled
  cases step with
  | fell below =>
    have lower := below.lower
    omega
  | rose above =>
    have clear := above.2.2
    dsimp only
    omega
  | falling | rising | level => rfl

/-- A steady input settles the value once the timer has run long enough. -/
lemma follow_steady (steady : evaluation.Steady value)
    (step : Follows pacing tracker evaluation after)
    (down : value < tracker.rEff → tracker.downSince.getD evaluation.now ≤ instant)
    (up : tracker.rEff + pacing.hysteresisBp < value →
      tracker.upSince.getD evaluation.now ≤ instant) :
    Nearing pacing value instant after ∧
      (max pacing.degradeSustainMs pacing.recoverSustainMs ≤ evaluation.now - instant →
        Settled pacing value after.rEff) := by
  have same : evaluation.value = value := by simp [Evaluation.value, steady.1]
  cases step with
  | fell =>
    have settled : Settled pacing value evaluation.value := ⟨by omega, same.le⟩
    exact ⟨.inl settled, fun _ => settled⟩
  | rose above =>
    have clear := above.2.2
    have settled : Settled pacing value (evaluation.value - pacing.hysteresisBp) :=
      ⟨by omega, by omega⟩
    exact ⟨.inl settled, fun _ => settled⟩
  | falling below short =>
    have lower := same ▸ below.lower
    exact ⟨.inr (.inl ⟨lower, _, down lower, rfl⟩), fun long => by have := down lower; omega⟩
  | rising above short =>
    by_cases higher : tracker.rEff + pacing.hysteresisBp < value
    · exact ⟨.inr (.inr ⟨higher, _, up higher, rfl⟩), fun long => by have := up higher; omega⟩
    · have settled : Settled pacing value tracker.rEff := ⟨by omega, same ▸ above.2.1.le⟩
      exact ⟨.inl settled, fun _ => settled⟩
  | level low high =>
    have most : tracker.rEff ≤ value := not_lt.mp fun lower =>
      low ⟨steady.2, value, steady.1, lower⟩
    have least : value ≤ tracker.rEff + pacing.hysteresisBp :=
      not_lt.mp fun higher => high ⟨steady.2, by omega, by omega⟩
    exact ⟨.inl ⟨least, most⟩, fun _ => ⟨least, most⟩⟩

lemma Nearing.follow (nearing : Nearing pacing value instant tracker)
    (steady : evaluation.Steady value) (step : Follows pacing tracker evaluation after) :
    Nearing pacing value instant after ∧
      (max pacing.degradeSustainMs pacing.recoverSustainMs ≤ evaluation.now - instant →
        Settled pacing value after.rEff) := by
  refine follow_steady steady step (fun lower => ?_) (fun higher => ?_)
  · obtain ⟨-, most⟩ | ⟨-, since, early, running⟩ | ⟨higher, -⟩ := nearing
    · omega
    · simpa [running] using early
    · omega
  obtain ⟨near, -⟩ | ⟨lower, -⟩ | ⟨-, since, early, running⟩ := nearing
  · omega
  · omega
  · simpa [running] using early

lemma track_settled {steady : List Evaluation}
    (settled : Settled pacing value (track pacing earlier).rEff)
    (constant : ∀ evaluation ∈ steady, evaluation.Steady value) :
    (track pacing (steady ++ earlier)).rEff = (track pacing earlier).rEff := by
  induction steady with
  | nil => rfl
  | cons evaluation steady ih =>
    obtain ⟨now, later⟩ := List.forall_mem_cons.mp constant
    have same := ih later
    rw [← same] at settled ⊢
    exact settled.follow now (follow_follows ..)

lemma track_falls
    (fell : (track pacing (evaluation :: earlier)).rEff < (track pacing earlier).rEff) :
    ∃ instant, Since pacing Evaluation.Below instant (evaluation :: earlier) ∧
      pacing.degradeSustainMs ≤ evaluation.now - instant := by
  rw [track] at fell
  have step := follow_follows pacing (track pacing earlier) evaluation
  generalize ((track pacing earlier).follow pacing evaluation).1 = after at step fell
  cases step with
  | fell below ran => exact ⟨_, since_getD below track_since.1, ran⟩
  | rose above =>
    have clear := above.2.2
    dsimp only at fell
    omega
  | falling | rising | level => exact absurd fell (lt_irrefl _)

lemma track_rises
    (rose : (track pacing earlier).rEff < (track pacing (evaluation :: earlier)).rEff) :
    (∃ instant, Since pacing (Evaluation.Above pacing) instant (evaluation :: earlier) ∧
      pacing.recoverSustainMs ≤ evaluation.now - instant) ∧
      (track pacing (evaluation :: earlier)).rEff + pacing.hysteresisBp ≤ evaluation.value := by
  rw [track] at rose ⊢
  have step := follow_follows pacing (track pacing earlier) evaluation
  generalize ((track pacing earlier).follow pacing evaluation).1 = after at step rose ⊢
  cases step with
  | rose above ran =>
    have clear := above.2.2
    exact ⟨⟨_, since_getD above track_since.2, ran⟩, by dsimp only; omega⟩
  | fell below => exact absurd (rose.trans below.lower) (lt_irrefl _)
  | falling | rising | level => exact absurd rose (lt_irrefl _)

/-- From the first evaluation of a steady input on, the value is settled or its timer runs. -/
lemma track_nearing {first : Evaluation} {steady : List Evaluation}
    (clock : ∀ evaluation ∈ earlier, evaluation.now ≤ first.now)
    (constant : ∀ evaluation ∈ steady ++ [first], evaluation.Steady value) :
    Nearing pacing value first.now (track pacing (steady ++ first :: earlier)) := by
  induction steady with
  | nil =>
    have timely : ∀ evaluation ∈ first :: earlier, evaluation.now ≤ first.now :=
      List.forall_mem_cons.mpr ⟨le_rfl, clock⟩
    obtain ⟨known, still⟩ := constant first (by simp)
    have same : first.value = value := by simp [Evaluation.value, known]
    refine (follow_steady ⟨known, still⟩ (follow_follows ..) (fun lower => ?_) (fun higher => ?_)).1
    · have below : first.Below _ := ⟨still, value, known, lower⟩
      exact (since_getD below track_since.1).now_le timely
    · have above : first.Above pacing _ := ⟨still, by omega, same ▸ higher.le⟩
      exact (since_getD above track_since.2).now_le timely
  | cons evaluation steady ih =>
    obtain ⟨now, before⟩ := List.forall_mem_cons.mp constant
    exact ((ih before).follow now (follow_follows ..)).1

variable (pacing evaluation earlier)

/-- The tracked value moves only as an input beyond it has lasted for the sustain time, and two
evaluations of a steady input as far apart as the longer one settle it for good. -/
theorem tracked_value
    (clock : ((evaluation :: earlier).map Evaluation.now).Pairwise (· ≥ ·)) :
    let before := (track pacing earlier).rEff
    let after := (track pacing (evaluation :: earlier)).rEff
    (after < before → ∃ instant, Since pacing Evaluation.Below instant (evaluation :: earlier) ∧
      pacing.degradeSustainMs ≤ evaluation.now - instant) ∧
    (before < after → (∃ instant, Since pacing (Evaluation.Above pacing) instant
        (evaluation :: earlier) ∧ pacing.recoverSustainMs ≤ evaluation.now - instant) ∧
      after + pacing.hysteresisBp ≤ evaluation.value) ∧
    ∀ value between first older, earlier = between ++ first :: older →
      (∀ steady ∈ evaluation :: (between ++ [first]), steady.Steady value) →
      max pacing.degradeSustainMs pacing.recoverSustainMs ≤ evaluation.now - first.now →
      Settled pacing value after ∧ ∀ later, (∀ steady ∈ later, steady.Steady value) →
        (track pacing (later ++ evaluation :: earlier)).rEff = after := by
  refine ⟨track_falls, track_rises, ?_⟩
  rintro value between first older rfl constant apart
  obtain ⟨now, before⟩ := List.forall_mem_cons.mp constant
  have sooner : ∀ evaluation ∈ older, evaluation.now ≤ first.now := by
    intro other listed
    rw [List.map_cons, List.pairwise_cons, List.map_append, List.pairwise_append] at clock
    exact (List.pairwise_cons.mp clock.2.2.1).1 _ (List.mem_map_of_mem listed)
  have settled := ((track_nearing sooner before).follow now (follow_follows ..)).2 apart
  exact ⟨settled, fun later steady => track_settled settled steady⟩

/-- A known 6000 settles the value within ten milliseconds. -/
theorem tracked_value_settles :
    Settled ⟨5, 5, 500⟩ 6000
      (track ⟨5, 5, 500⟩ [⟨10, some 6000, false⟩, ⟨0, some 6000, false⟩]).rEff :=
  ((tracked_value ⟨5, 5, 500⟩ ⟨10, some 6000, false⟩ [⟨0, some 6000, false⟩] (by decide)).2.2 6000
    [] ⟨0, some 6000, false⟩ [] rfl (by simp [Evaluation.Steady]) (by decide)).1

end Performance
