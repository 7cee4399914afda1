import ActingCommand.Policy.Predicate

/-!
# Due and lost clock slots

The counted clocks of a trigger give a pair one occurrence that is due, the latest one not served
and still inside its clock's grace, and a list of lost ones: the occurrences after the last
dispatch, of all the clocks together, that ran out of their grace or were followed by another.
-/

namespace Policy

open Machine Nearest List Except Std.ExtTreeMap

structure CountedClock where
  schedule : ClockSchedule
  missed : Option Nat

mutual

def collectClockSchedules : PredicateSpec → List CountedClock
  | .all predicates | .any predicates => collectMembers predicates
  | .clock schedule missed => [⟨schedule, missed⟩]
  | _ => []

def collectMembers : List PredicateSpec → List CountedClock
  | [] => []
  | predicate :: rest => collectClockSchedules predicate ++ collectMembers rest

end

def clockSlotMinIntervalMs : Nat := 3600000

def clockSlotLapseLookbackMs : Nat := 48 * 3600000

def CountedClock.shortInterval (clock : CountedClock) : Bool :=
  match clock.schedule.recurrence with
  | .interval everyMs _ _ _ => everyMs < clockSlotMinIntervalMs
  | _ => false

def countedClocks (trigger : PredicateSpec) : Option (List CountedClock) :=
  let clocks := collectClockSchedules trigger
  if clocks ≠ [] ∧ ¬ clocks.any CountedClock.shortInterval then some clocks else none

def occurrenceExpiry (occurrence graceMs : Nat) : Evaluated Nat :=
  orOverflow (checkedAdd occurrence graceMs) "clock occurrence grace overflowed"

structure ClockSlotView where
  dueOccurrence : Option Nat
  nextOccurrence : Option Nat
deriving DecidableEq

section Pair

variable (lastDispatched : Option Nat) (time : EvaluationTime)

/-- The due occurrence of one clock, and its next one. -/
def CountedClock.slot (clock : CountedClock) : Evaluated (Option Nat × Option Nat) := do
  let (latest, next) ← scheduleOccurrences clock.schedule time
  let due := latest.filter fun occurrence => lastDispatched.all (· < occurrence)
  match due, clock.missed with
  | some occurrence, some graceMs => do
    let expiry ← occurrenceExpiry occurrence graceMs
    pure (if expiry ≤ time.unixMs then none else due, next)
  | _, _ => pure (due, next)

def slotView : List CountedClock → ClockSlotView → Evaluated ClockSlotView
  | [], view => pure view
  | clock :: rest, view => do
    let (due, next) ← clock.slot lastDispatched time
    slotView rest ⟨max view.dueOccurrence due, minWake view.nextOccurrence next⟩

def clockSlotView (trigger : PredicateSpec) : Evaluated (Option ClockSlotView) :=
  match countedClocks trigger with
  | none => pure none
  | some clocks => some <$> slotView lastDispatched time clocks ⟨none, none⟩

end Pair

inductive ClockSlotLapseKind
  | expired (graceMs : Nat)
  | superseded
deriving DecidableEq

structure ClockSlotLapse where
  occurrenceUnixMs : Nat
  nextOccurrenceUnixMs : Option Nat
  kind : ClockSlotLapseKind
deriving DecidableEq

/-- Each occurrence read, with the grace its clocks give it together. -/
abbrev Graces := Std.ExtTreeMap Nat (Option Nat)

/-- Of several clocks at one instant the largest grace, and none when one of them has none. -/
def Graces.note (graces : Graces) (grace : Option Nat) (occurrence : Nat) : Graces :=
  graces.insert occurrence <| match graces[occurrence]? with
    | some existing => existing.bind fun left => grace.map (max left)
    | none => grace

section Pass

variable (time : EvaluationTime) (read : Nat → Bool)

def readSlots : List CountedClock → Graces → Option Nat → Evaluated (Graces × Option Nat)
  | [], graces, next => pure (graces, next)
  | clock :: rest, graces, next => do
    let (_, coming) ← scheduleOccurrences clock.schedule time
    let past ← pastOccurrences clock.schedule time read
    readSlots rest (past.foldl (·.note clock.missed) graces) (minWake next coming)

def slotExpired (occurrence : Nat) (grace successor : Option Nat) : Evaluated (Option Nat) :=
  match grace with
  | none => pure none
  | some graceMs => do
    let expiry ← occurrenceExpiry occurrence graceMs
    pure (if expiry ≤ time.unixMs ∧ successor.all (expiry ≤ ·) then some graceMs else none)

/-- The lost ones of the occurrences read, newest first, after `successor`. -/
def slotLapses : List (Nat × Option Nat) → Option Nat → Evaluated (List ClockSlotLapse)
  | [], _ => pure []
  | (occurrence, grace) :: rest, successor => do
    let expired ← slotExpired time occurrence grace successor
    let kind := match expired with
      | some graceMs => some (ClockSlotLapseKind.expired graceMs)
      | none => if successor.any (· ≤ time.unixMs) then some .superseded else none
    let lapses ← slotLapses rest (some occurrence)
    pure ((kind.map fun kind => ⟨occurrence, successor, kind⟩).toList ++ lapses)

end Pass

def clockSlotLapses (lastDispatched : Option Nat) (time : EvaluationTime)
    (trigger : PredicateSpec) : Evaluated (List ClockSlotLapse) :=
  match countedClocks trigger, lastDispatched with
  | some clocks, some last => do
    let earliest := time.unixMs - clockSlotLapseLookbackMs
    let (graces, next) ←
      readSlots time (fun occurrence => last < occurrence && earliest ≤ occurrence) clocks ∅ none
    slotLapses time (graces.toList.reverse.take clockSlotLapseLimit) next
  | _, _ => pure []

/-! ## The due occurrence -/

section Due

variable {lastDispatched : Option Nat} {time : EvaluationTime}

/-- The clock's latest occurrence is not served, and its grace lasts. -/
def CountedClock.InTime (clock : CountedClock) (lastDispatched : Option Nat)
    (time : EvaluationTime) (occurrence : Nat) : Prop :=
  IsLatest (clock.schedule.occurrences time) time.unixMs (some (occurrence : Int)) ∧
    (∀ last ∈ lastDispatched, last < occurrence) ∧
    ∀ graceMs ∈ clock.missed, time.unixMs < occurrence + graceMs

lemma CountedClock.slot_due {clock : CountedClock} {due next}
    (answer : clock.slot lastDispatched time = .ok (due, next)) (occurrence : Nat) :
    due = some occurrence ↔ clock.InTime lastDispatched time occurrence := by
  obtain ⟨⟨latest, after⟩, near, answer⟩ := bind_ok_iff.mp answer
  have isLatest := (scheduleOccurrences_nearest near).1
  have same : IsLatest (clock.schedule.occurrences time) time.unixMs (some (occurrence : Int)) ↔
      latest = some occurrence := by
    constructor
    · intro h
      obtain ⟨o, rfl, cast⟩ := Option.map_eq_some_iff.mp (isLatest.unique h)
      exact congrArg some (Int.ofNat.inj cast)
    · rintro rfl
      exact isLatest
  rw [InTime, same]
  have served : latest.filter (fun o => lastDispatched.all (· < o)) = some occurrence ↔
      latest = some occurrence ∧ ∀ last ∈ lastDispatched, last < occurrence := by
    rw [Option.filter_eq_some_iff, Option.all_eq_true]
    simp [decide_eq_true_eq, Option.mem_def]
  simp only at answer
  split at answer
  · rename_i o graceMs filtered missed
    simp only [bind_ok_iff, occurrenceExpiry, orOverflow_eq_ok_iff,
      checkedAdd_eq_some_iff, pure_ok_iff, Prod.mk.injEq] at answer
    obtain ⟨_, ⟨rfl, -⟩, rfl, rfl⟩ := answer
    rw [← and_assoc, ← served, filtered]
    by_cases lapsed : o + graceMs ≤ time.unixMs <;> simp [missed, lapsed] <;> omega
  rename_i none
  cases answer
  rw [← and_assoc, ← served]
  constructor
  · exact fun h => ⟨h, fun graceMs missed => absurd missed (none _ _ h)⟩
  · exact fun h => h.1

lemma max_eq_some {a b} {o : Nat} (h : max a b = some o) : a = some o ∨ b = some o := by
  cases a <;> cases b <;> simp_all
  grind

lemma le_max_of_eq_some {a b} {o : Nat} (h : a = some o ∨ b = some o) :
    ∃ due ∈ max a b, o ≤ due := by
  cases a <;> cases b <;> simp_all
  grind

/-- The due occurrence is the latest one some clock is in time for. -/
theorem slotView_due {clocks} {start view : ClockSlotView}
    (answer : slotView lastDispatched time clocks start = .ok view) :
    (∀ o ∈ view.dueOccurrence, start.dueOccurrence = some o ∨
      ∃ clock ∈ clocks, clock.InTime lastDispatched time o) ∧
    ∀ o, (start.dueOccurrence = some o ∨ ∃ clock ∈ clocks, clock.InTime lastDispatched time o) →
      ∃ due ∈ view.dueOccurrence, o ≤ due := by
  induction clocks generalizing start with
  | nil =>
    obtain rfl := ok.inj answer
    exact ⟨fun o h => .inl h, fun o h => ⟨o, h.resolve_right (by simp), le_rfl⟩⟩
  | cons clock rest ih =>
    simp only [slotView, bind_ok_iff] at answer
    obtain ⟨⟨due, next⟩, slot, answer⟩ := answer
    obtain ⟨source, bound⟩ := ih answer
    simp only [mem_cons, exists_eq_or_imp, ← clock.slot_due slot]
    constructor
    · intro o chosen
      rcases source o chosen with h | h
      · exact (max_eq_some h).imp_right .inl
      · exact .inr (.inr h)
    · rintro o h
      rw [← or_assoc] at h
      rcases h with h | h
      · obtain ⟨between, chosen, le⟩ := le_max_of_eq_some h
        obtain ⟨d, hd, le'⟩ := bound between (.inl chosen)
        exact ⟨d, hd, le.trans le'⟩
      · exact bound o (.inr h)

end Due

/-! ## The occurrences read -/

/-- `merged` is a grace at least as long as `grace`. -/
def Outlasts (merged grace : Option Nat) : Prop := ∀ long ∈ merged, ∃ short ∈ grace, short ≤ long

lemma Outlasts.refl (grace : Option Nat) : Outlasts grace grace := fun long h => ⟨long, h, le_rfl⟩

lemma Outlasts.trans {a b c} (ab : Outlasts a b) (bc : Outlasts b c) : Outlasts a c := by
  intro long h
  obtain ⟨middle, h, le⟩ := ab long h
  obtain ⟨short, h, le'⟩ := bc middle h
  exact ⟨short, h, le'.trans le⟩

lemma Graces.note_eq (graces : Graces) (grace : Option Nat) (occurrence : Nat) :
    ∃ merged, graces.note grace occurrence = graces.insert occurrence merged ∧
      Outlasts merged grace ∧ ∀ old ∈ graces[occurrence]?, Outlasts merged old := by
  refine ⟨_, rfl, ?_⟩
  cases found : graces[occurrence]? with
  | none => exact ⟨.refl _, by simp⟩
  | some old =>
    refine ⟨fun long h => ?_, fun existing same long h => ?_⟩ <;>
      obtain ⟨left, hl, h⟩ := Option.bind_eq_some_iff.mp h <;>
      obtain ⟨right, hr, rfl⟩ := Option.map_eq_some_iff.mp h
    · exact ⟨right, hr, le_max_right _ _⟩
    · obtain rfl := Option.some.inj same
      exact ⟨left, hl, le_max_left _ _⟩

/-- What noting a clock's occurrences leaves of the map: the entries before and the new ones, each
with a grace at least as long. -/
structure Graces.Notes (graces after : Graces) (new : Nat → Option Nat → Prop) : Prop where
  only : ∀ o : Nat, o ∈ after → o ∈ graces ∨ ∃ grace, new o grace
  old : ∀ o : Nat, ∀ grace ∈ graces[o]?, ∃ merged ∈ after[o]?, Outlasts merged grace
  added : ∀ (o : Nat) (grace : Option Nat), new o grace →
    ∃ merged ∈ after[o]?, Outlasts merged grace

lemma Graces.notes_foldl (graces : Graces) (grace : Option Nat) (past : List Nat) :
    graces.Notes (past.foldl (·.note grace) graces) fun o g => o ∈ past ∧ g = grace := by
  induction past generalizing graces with
  | nil => exact ⟨fun o h => .inl h, fun o g h => ⟨g, h, .refl g⟩, by simp⟩
  | cons occurrence rest ih =>
    obtain ⟨merged, noted, outlasts, outlastsOld⟩ := graces.note_eq grace occurrence
    obtain ⟨only, old, added⟩ := ih (graces.note grace occurrence)
    rw [noted] at only old
    have here : ∃ longer ∈ (rest.foldl (·.note grace) (graces.note grace occurrence))[occurrence]?,
        Outlasts longer merged := noted ▸ old occurrence merged (by simp)
    refine ⟨fun o h => ?_, fun o g h => ?_, ?_⟩
    · rcases only o (noted ▸ h) with h | ⟨g, listed, rfl⟩
      · rcases Std.ExtTreeMap.mem_insert.mp h with same | h
        · exact .inr ⟨grace, by simp [Std.LawfulEqCmp.eq_of_compare same]⟩
        · exact .inl h
      · exact .inr ⟨g, mem_cons_of_mem _ listed, rfl⟩
    · by_cases same : occurrence = o
      · subst same
        obtain ⟨longer, found, h'⟩ := here
        exact ⟨longer, found, h'.trans (outlastsOld g h)⟩
      · rw [foldl_cons, noted]
        exact old o g (by simpa [Std.ExtTreeMap.getElem?_insert, same] using h)
    · rintro o g ⟨listed, rfl⟩
      rcases mem_cons.mp listed with rfl | listed
      · obtain ⟨longer, found, h'⟩ := here
        exact ⟨longer, found, h'.trans outlasts⟩
      · exact added o g ⟨listed, rfl⟩

/-- The occurrences one clock's walk back lists. -/
def CountedClock.Lists (clock : CountedClock) (time : EvaluationTime) (read : Nat → Bool)
    (o : Nat) : Prop :=
  ∃ found, pastOccurrences clock.schedule time read = .ok found ∧ o ∈ found

lemma readSlots_notes {time read clocks} {graces after : Graces} {start next}
    (answer : readSlots time read clocks graces start = .ok (after, next)) :
    graces.Notes after (fun o g => ∃ clock ∈ clocks, clock.Lists time read o ∧ g = clock.missed) ∧
      (∀ clock ∈ clocks, ∃ found, pastOccurrences clock.schedule time read = .ok found) ∧
      ((∀ n ∈ start, time.unixMs < n) → ∀ n ∈ next, time.unixMs < n) := by
  induction clocks generalizing graces start with
  | nil =>
    simp only [readSlots, pure_ok_iff, Prod.mk.injEq] at answer
    obtain ⟨rfl, rfl⟩ := answer
    exact ⟨⟨fun o h => .inl h, fun o g h => ⟨g, h, .refl g⟩, by simp⟩, by simp, id⟩
  | cons clock rest ih =>
    simp only [readSlots, bind_ok_iff] at answer
    obtain ⟨⟨latest, coming⟩, near, past, walked, answer⟩ := answer
    obtain ⟨⟨only, old, added⟩, walks, later⟩ := ih answer
    obtain ⟨only', old', added'⟩ := graces.notes_foldl clock.missed past
    have longer {o : Nat} {g : Option Nat}
        (h : ∃ merged ∈ (past.foldl (·.note clock.missed) graces)[o]?, Outlasts merged g) :
        ∃ merged ∈ after[o]?, Outlasts merged g := by
      obtain ⟨middle, found, h⟩ := h
      obtain ⟨merged, found, h'⟩ := old o middle found
      exact ⟨merged, found, h'.trans h⟩
    refine ⟨⟨fun o h => ?_, fun o g h => longer (old' o g h), ?_⟩, ?_, fun start n h => ?_⟩
    · rcases only o h with h | ⟨g, other, mem, lists⟩
      · rcases only' o h with h | ⟨g, listed, rfl⟩
        · exact .inl h
        · exact .inr ⟨_, clock, mem_cons_self, ⟨past, walked, listed⟩, rfl⟩
      · exact .inr ⟨g, other, mem_cons_of_mem _ mem, lists⟩
    · rintro o g ⟨other, mem, ⟨found, walked', listed⟩, rfl⟩
      rcases mem_cons.mp mem with rfl | mem
      · obtain rfl := ok.inj (walked.symm.trans walked')
        exact longer (added' o _ ⟨listed, rfl⟩)
      · exact added o _ ⟨other, mem, ⟨found, walked', listed⟩, rfl⟩
    · exact forall_mem_cons.mpr ⟨⟨past, walked⟩, walks⟩
    refine later (fun n h => ?_) n h
    rcases (minWake_eq_some_iff.mp h).1 with h | h
    · exact start n h
    subst h
    have := (scheduleOccurrences_nearest near).2.1.2
    exact_mod_cast this

/-! ## The lost occurrences -/

section Lapses

variable {time : EvaluationTime} {read : List (Nat × Option Nat)} {successor : Option Nat}
variable {lapses : List ClockSlotLapse}

/-- An occurrence that another one followed is lost. -/
theorem lapse_of_follower (sorted : read.Pairwise fun a b => b.1 < a.1)
    (past : ∀ slot ∈ read, slot.1 ≤ time.unixMs)
    (answer : slotLapses time read successor = .ok lapses) {slot} (listed : slot ∈ read)
    (followed : (∃ s ∈ successor, s ≤ time.unixMs) ∨ ∃ later ∈ read, slot.1 < later.1) :
    ∃ lapse ∈ lapses, lapse.occurrenceUnixMs = slot.1 := by
  induction read generalizing successor lapses with
  | nil => cases listed
  | cons first rest ih =>
    simp only [slotLapses, bind_ok_iff, pure_ok_iff] at answer
    obtain ⟨expired, -, others, answer, rfl⟩ := answer
    obtain ⟨before, sorted⟩ := pairwise_cons.mp sorted
    rcases mem_cons.mp listed with rfl | listed
    · have followed : ∃ s ∈ successor, s ≤ time.unixMs := by
        refine followed.resolve_right ?_
        rintro ⟨later, mem, lt⟩
        rcases mem_cons.mp mem with rfl | mem
        · exact lt_irrefl _ lt
        · exact lt_asymm lt (before later mem)
      have any : successor.any (· ≤ time.unixMs) = true := by
        obtain ⟨s, rfl, le⟩ := followed
        simpa using le
      cases expired <;> simp [any]
    · obtain ⟨lapse, mem, same⟩ := ih sorted (fun slot h => past slot (mem_cons_of_mem _ h))
        answer listed (.inl ⟨first.1, rfl, past first mem_cons_self⟩)
      exact ⟨lapse, mem_append_right _ mem, same⟩

/-- A lost occurrence ran out of its grace, or another one followed. -/
theorem lapse_cases (sorted : read.Pairwise fun a b => b.1 < a.1)
    (answer : slotLapses time read successor = .ok lapses) {lapse} (lost : lapse ∈ lapses) :
    ∃ slot ∈ read, lapse.occurrenceUnixMs = slot.1 ∧
      ((∃ graceMs ∈ slot.2, slot.1 + graceMs ≤ time.unixMs) ∨
        (∃ s ∈ successor, s ≤ time.unixMs) ∨ ∃ later ∈ read, slot.1 < later.1) := by
  induction read generalizing successor lapses with
  | nil =>
    obtain rfl := ok.inj answer
    cases lost
  | cons first rest ih =>
    simp only [slotLapses, bind_ok_iff, pure_ok_iff] at answer
    obtain ⟨expired, check, others, answer, rfl⟩ := answer
    obtain ⟨before, sorted⟩ := pairwise_cons.mp sorted
    rcases mem_append.mp lost with own | lost
    · refine ⟨first, mem_cons_self, ?_⟩
      cases expired with
      | none =>
        obtain ⟨kind, chosen, rfl⟩ := Option.map_eq_some_iff.mp (Option.mem_toList.mp own)
        simp only [Option.ite_none_right_eq_some, Option.any_eq_true, decide_eq_true_eq] at chosen
        exact ⟨rfl, .inr (.inl chosen.1)⟩
      | some graceMs =>
        obtain ⟨kind, -, rfl⟩ := Option.map_eq_some_iff.mp (Option.mem_toList.mp own)
        refine ⟨rfl, .inl ?_⟩
        unfold slotExpired at check
        split at check
        · cases check
        rename_i grace held
        simp only [bind_ok_iff, occurrenceExpiry, orOverflow_eq_ok_iff,
          checkedAdd_eq_some_iff, pure_ok_iff,
          Option.ite_none_right_eq_some] at check
        obtain ⟨_, ⟨rfl, -⟩, ⟨lapsed, -⟩, -⟩ := check
        exact ⟨grace, held, lapsed⟩
    · obtain ⟨slot, listed, same, reason⟩ := ih sorted answer lost
      refine ⟨slot, mem_cons_of_mem _ listed, same, ?_⟩
      rcases reason with lapsed | - | ⟨later, mem, lt⟩
      · exact .inl lapsed
      · exact .inr (.inr ⟨first, mem_cons_self, before slot listed⟩)
      · exact .inr (.inr ⟨later, mem_cons_of_mem _ mem, lt⟩)

end Lapses

/-- The first `n` of a descending list are those with fewer than `n` before them. -/
theorem mem_take_iff_countP {l : List (Nat × Option Nat)} (sorted : l.Pairwise fun a b => b.1 < a.1)
    {slot} (listed : slot ∈ l) (n : Nat) :
    slot ∈ l.take n ↔ l.countP (fun other => slot.1 < other.1) < n := by
  induction l generalizing n with
  | nil => cases listed
  | cons first rest ih =>
    obtain ⟨before, sorted⟩ := pairwise_cons.mp sorted
    rcases mem_cons.mp listed with rfl | listed
    · have none : rest.countP (fun other => slot.1 < other.1) = 0 := by
        rw [countP_eq_zero]
        intro other mem
        simpa using (before other mem).le
      cases n <;> simp [none]
    have lt := before slot listed
    cases n with
    | zero => simp
    | succ n =>
      have other : slot ≠ first := fun same => (same ▸ lt).ne rfl
      simp [lt, other, ih sorted listed n]

/-- A member with few others after it is among the newest the reader accepts. -/
theorem mem_newest {S : Set Int} {now : Int} {read} {limit : Nat} {found}
    (newest : Newest S now read limit found) (up : ∀ {a b}, a ≤ b → read a = true → read b = true)
    {u : Int} (hu : u ∈ S) (le : u ≤ now) (ok : read u = true)
    (few : {w ∈ S | u < w ∧ w ≤ now}.encard < limit) : u ∈ found := by
  by_contra missing
  have above : ∀ c ∈ found, u < c := fun c hc =>
    lt_of_not_ge fun h => missing (newest.gapless c hc u hu h le)
  rcases newest.stops with full | stops
  · have inside : (found.toFinset : Set Int) ⊆ {w ∈ S | u < w ∧ w ≤ now} := by
      intro c hc
      have hc : c ∈ found := by simpa using hc
      obtain ⟨mem, le, -⟩ := newest.member c hc
      exact ⟨mem, above c hc, le⟩
    have nodup : found.Nodup := newest.descending.imp fun h => h.ne'
    have := Set.encard_le_encard inside
    rw [Set.encard_coe_eq_coe_finsetCard, toFinset_card_of_nodup nodup, full] at this
    exact not_lt_of_ge this few
  · obtain ⟨g, hg, greatest⟩ := Int.exists_greatest_of_bdd
      (P := fun b => b ∈ S ∧ b ≤ now ∧ ∀ c ∈ found, b < c) ⟨now, fun b h => h.2.1⟩
        ⟨u, hu, le, above⟩
    have refused := stops g ⟨hg, fun b hb => greatest b hb⟩
    rw [up (greatest u ⟨hu, le, above⟩) ok] at refused
    cases refused

def IsSlot (clocks : List CountedClock) (time : EvaluationTime) (u : Nat) : Prop :=
  ∃ clock ∈ clocks, (u : Int) ∈ clock.schedule.occurrences time

/-- The occurrences after one of them, up to the evaluation. -/
def newerSlots (clocks : List CountedClock) (time : EvaluationTime) (u : Nat) : Set Nat :=
  {w | IsSlot clocks time w ∧ u < w ∧ w ≤ time.unixMs}

/-- The occurrences the lapse pass looks at: after the last dispatch, within the lookback and
among the newest ones. -/
structure Recent (clocks : List CountedClock) (last : Nat) (time : EvaluationTime) (u : Nat) :
    Prop where
  slot : IsSlot clocks time u
  past : u ≤ time.unixMs
  unserved : last < u
  lookback : time.unixMs - clockSlotLapseLookbackMs ≤ u
  few : (newerSlots clocks time u).encard < clockSlotLapseLimit

section Pass

variable {clocks : List CountedClock} {last : Nat} {time : EvaluationTime} {graces : Graces}
variable {next : Option Nat} {u : Nat}

lemma newerSlots_anti {v : Nat} (le : u ≤ v) :
    newerSlots clocks time v ⊆ newerSlots clocks time u :=
  fun _ h => ⟨h.1, lt_of_le_of_lt le h.2.1, h.2.2⟩

lemma Recent.later (recent : Recent clocks last time u) {v : Nat} (slot : IsSlot clocks time v)
    (le : u ≤ v) (past : v ≤ time.unixMs) : Recent clocks last time v :=
  ⟨slot, past, lt_of_lt_of_le recent.unserved le, recent.lookback.trans le,
    lt_of_le_of_lt (Set.encard_le_encard (newerSlots_anti le)) recent.few⟩

lemma CountedClock.lists_of_recent {clock} (mem : clock ∈ clocks)
    (recent : Recent clocks last time u) (own : (u : Int) ∈ clock.schedule.occurrences time)
    {found} (walked : pastOccurrences clock.schedule time (fun o =>
      last < o && time.unixMs - clockSlotLapseLookbackMs ≤ o) = .ok found) : u ∈ found := by
  have few : {w ∈ clock.schedule.occurrences time | (u : Int) < w ∧
      w ≤ (time.unixMs : Int)}.encard < clockSlotLapseLimit := by
    refine lt_of_le_of_lt (Set.encard_le_encard (t := Nat.cast '' newerSlots clocks time u) ?_)
      (lt_of_le_of_lt (Set.encard_image_le _ _) recent.few)
    rintro w ⟨hw, lt, le⟩
    obtain ⟨w, rfl⟩ := Int.eq_ofNat_of_zero_le (by omega : 0 ≤ w)
    exact ⟨w, ⟨⟨clock, mem, hw⟩, by omega, by omega⟩, rfl⟩
  have listed := mem_newest (pastOccurrences_newest walked) (fun {a b} le h => by
    simp only [Bool.and_eq_true, decide_eq_true_eq] at h ⊢
    omega) own (by exact_mod_cast recent.past) (by simp [recent.unserved, recent.lookback]) few
  simpa using listed

variable (answer : readSlots time
  (fun o => last < o && time.unixMs - clockSlotLapseLookbackMs ≤ o) clocks ∅ none =
    .ok (graces, next))

include answer

lemma Recent.mem (recent : Recent clocks last time u) : u ∈ graces := by
  obtain ⟨notes, walks, -⟩ := readSlots_notes answer
  obtain ⟨clock, mem, own⟩ := recent.slot
  obtain ⟨found, walked⟩ := walks clock mem
  obtain ⟨merged, at_u, -⟩ := notes.added u clock.missed
    ⟨clock, mem, ⟨found, walked, clock.lists_of_recent mem recent own walked⟩, rfl⟩
  exact mem_iff_isSome_getElem?.mpr (by rw [Option.mem_def.mp at_u]; rfl)

lemma mem_graces (listed : u ∈ graces) : IsSlot clocks time u ∧ u ≤ time.unixMs ∧ last < u ∧
    time.unixMs - clockSlotLapseLookbackMs ≤ u := by
  obtain ⟨notes, -, -⟩ := readSlots_notes answer
  rcases notes.only u listed with h | ⟨-, clock, mem, ⟨found, walked, h⟩, -⟩
  · simp at h
  obtain ⟨own, past, ok⟩ := (pastOccurrences_newest walked).member u (List.mem_map_of_mem h)
  simp only [Int.toNat_natCast, Bool.and_eq_true, decide_eq_true_eq] at ok
  exact ⟨⟨clock, mem, own⟩, by exact_mod_cast past, ok.1, ok.2⟩

omit answer in
lemma slots_sorted (graces : Graces) : graces.toList.reverse.Pairwise fun a b => b.1 < a.1 := by
  rw [pairwise_reverse]
  exact ordered_keys_toList.imp fun h => Nat.compare_eq_lt.mp h

omit answer in
/-- The occurrences read after one of them, as a list without repetition. -/
theorem slotsAfter (graces : Graces) (u : Nat) : ∃ l : List Nat, l.Nodup ∧
    l.length = graces.toList.reverse.countP (fun slot => u < slot.1) ∧
    ∀ w, w ∈ l ↔ w ∈ graces ∧ u < w := by
  refine ⟨(graces.toList.reverse.filter fun slot => u < slot.1).map Prod.fst, ?_, ?_, fun w => ?_⟩
  · rw [List.Nodup, pairwise_map]
    exact ((slots_sorted graces).filter _).imp fun h => h.ne'
  · rw [length_map, countP_eq_length_filter]
  simp only [List.mem_map, mem_filter, mem_reverse, decide_eq_true_eq, Prod.exists,
    mem_toList_iff_getElem?_eq_some, mem_iff_isSome_getElem?,
    Option.isSome_iff_exists]
  constructor
  · rintro ⟨_, grace, ⟨found, lt⟩, rfl⟩
    exact ⟨⟨grace, found⟩, lt⟩
  · rintro ⟨⟨grace, found⟩, lt⟩
    exact ⟨w, grace, ⟨found, lt⟩, rfl⟩

lemma countP_le_newer : (graces.toList.reverse.countP fun slot => u < slot.1 : Nat) ≤
    (newerSlots clocks time u).encard := by
  obtain ⟨l, nodup, length, mem⟩ := slotsAfter graces u
  rw [← length, ← toFinset_card_of_nodup nodup, ← Set.encard_coe_eq_coe_finsetCard]
  refine Set.encard_le_encard fun w hw => ?_
  obtain ⟨listed, lt⟩ := (mem w).mp (by simpa using hw)
  obtain ⟨slot, past, -⟩ := mem_graces answer listed
  exact ⟨slot, lt, past⟩

omit answer in
lemma newer_le_countP (all : newerSlots clocks time u ⊆ {w | w ∈ graces}) :
    (newerSlots clocks time u).encard ≤
      (graces.toList.reverse.countP fun slot => u < slot.1 : Nat) := by
  obtain ⟨l, nodup, length, mem⟩ := slotsAfter graces u
  rw [← length, ← toFinset_card_of_nodup nodup, ← Set.encard_coe_eq_coe_finsetCard]
  refine Set.encard_le_encard fun w hw => ?_
  simpa using (mem w).mpr ⟨all hw, hw.2.1⟩

/-- The slots the pass judges are the recent ones. -/
theorem mem_judged_iff {grace : Option Nat} (held : graces[u]? = some grace) :
    (u, grace) ∈ graces.toList.reverse.take clockSlotLapseLimit ↔
      Recent clocks last time u := by
  have listed : (u, grace) ∈ graces.toList.reverse :=
    mem_reverse.mpr (mem_toList_iff_getElem?_eq_some.mpr held)
  rw [mem_take_iff_countP (slots_sorted graces) listed]
  constructor
  · intro few
    have member : u ∈ graces := mem_iff_isSome_getElem?.mpr (by rw [held]; rfl)
    obtain ⟨slot, past, unserved, lookback⟩ := mem_graces answer member
    have bound {w : Nat} (le : u ≤ w) (all : newerSlots clocks time w ⊆ {w | w ∈ graces}) :
        (newerSlots clocks time w).encard < clockSlotLapseLimit := by
      refine lt_of_le_of_lt (newer_le_countP all) (Nat.cast_lt.mpr (lt_of_le_of_lt ?_ few))
      exact countP_mono_left fun slot _ h => by
        simp only [decide_eq_true_eq] at h ⊢
        omega
    -- From the newest one back: every one after it was read, so it has few after it.
    have read (n : Nat) : ∀ w ∈ newerSlots clocks time u, time.unixMs - w = n → w ∈ graces := by
      induction n using Nat.strong_induction_on with
      | h n ih =>
        rintro w newer rfl
        refine Recent.mem answer ⟨newer.1, newer.2.2, unserved.trans newer.2.1,
          lookback.trans newer.2.1.le, bound newer.2.1.le fun v hv => ?_⟩
        exact ih _ (by have := hv.2; omega) v (newerSlots_anti newer.2.1.le hv) rfl
    exact ⟨slot, past, unserved, lookback, bound le_rfl fun w newer => read _ w newer rfl⟩
  · exact fun recent => Nat.cast_lt.mp (lt_of_le_of_lt (countP_le_newer answer) recent.few)

end Pass

/-! ## Due and lost -/

/-- Every recent occurrence that another one followed is lost. -/
def FollowedLost (clocks : List CountedClock) (lastDispatched : Option Nat) (time : EvaluationTime)
    (lapses : List ClockSlotLapse) : Prop :=
  ∀ last ∈ lastDispatched, ∀ u, Recent clocks last time u → (newerSlots clocks time u).Nonempty →
    ∃ lapse ∈ lapses, lapse.occurrenceUnixMs = u

/-- Where a clock is in time for a recent occurrence, one is in time for the newest of all. -/
def NewestInTime (clocks : List CountedClock) (last : Nat) (time : EvaluationTime) : Prop :=
  ∀ clock ∈ clocks, ∀ o, clock.InTime (some last) time o → Recent clocks last time o →
    ∃ other ∈ clocks, ∃ newest, other.InTime (some last) time newest ∧
      newerSlots clocks time newest = ∅

section Exclude

variable {clocks : List CountedClock} {last : Nat} {time : EvaluationTime} {graces : Graces}
variable {next : Option Nat} {lapses : List ClockSlotLapse}
variable (answer : readSlots time
  (fun o => last < o && time.unixMs - clockSlotLapseLookbackMs ≤ o) clocks ∅ none =
    .ok (graces, next))
variable (passed : slotLapses time (graces.toList.reverse.take clockSlotLapseLimit) next =
  .ok lapses)

include answer passed

lemma Recent.lost {u : Nat} (recent : Recent clocks last time u)
    (followed : (newerSlots clocks time u).Nonempty) :
    ∃ lapse ∈ lapses, lapse.occurrenceUnixMs = u := by
  have judged {v : Nat} (recent : Recent clocks last time v) :
      ∃ grace, (v, grace) ∈ graces.toList.reverse.take clockSlotLapseLimit := by
    obtain ⟨grace, held⟩ := Option.isSome_iff_exists.mp
      (mem_iff_isSome_getElem?.mp (recent.mem answer))
    exact ⟨grace, (mem_judged_iff answer held).mpr recent⟩
  obtain ⟨w, slot, lt, past⟩ := followed
  obtain ⟨grace, listed⟩ := judged recent
  obtain ⟨later, after⟩ := judged (recent.later slot lt.le past)
  refine lapse_of_follower ((slots_sorted graces).sublist (take_sublist _ _)) ?_ passed listed
    (.inr ⟨_, after, lt⟩)
  intro slot mem
  have held := mem_toList_iff_getElem?_eq_some.mp
    (mem_reverse.mp (mem_of_mem_take mem))
  exact (mem_graces answer (mem_iff_isSome_getElem?.mpr (by rw [held]; rfl))).2.1

/-- An occurrence a clock is in time for is lost only because another one followed. -/
theorem recent_of_lost {clock} (mem : clock ∈ clocks) {lapse}
    (lost : lapse ∈ lapses) (inTime : clock.InTime (some last) time lapse.occurrenceUnixMs) :
    Recent clocks last time lapse.occurrenceUnixMs ∧
      (newerSlots clocks time lapse.occurrenceUnixMs).Nonempty := by
  have held {slot : Nat × Option Nat}
      (mem : slot ∈ graces.toList.reverse.take clockSlotLapseLimit) :
      graces[slot.1]? = some slot.2 := mem_toList_iff_getElem?_eq_some.mp
    (mem_reverse.mp (mem_of_mem_take mem))
  obtain ⟨slot, listed, same, reason⟩ :=
    lapse_cases ((slots_sorted graces).sublist (take_sublist _ _)) passed lost
  rw [same] at inTime ⊢
  have recent := (mem_judged_iff answer (held listed)).mp listed
  refine ⟨recent, ?_⟩
  obtain ⟨notes, walks, coming⟩ := readSlots_notes answer
  rcases reason with ⟨graceMs, grace, lapsed⟩ | ⟨s, mem, le⟩ | ⟨later, after, lt⟩
  · obtain ⟨found, walked⟩ := walks clock mem
    have own := inTime.1.1.1
    obtain ⟨merged, found, outlasts⟩ := notes.added slot.1 clock.missed
      ⟨clock, mem, ⟨found, walked, clock.lists_of_recent mem recent own walked⟩, rfl⟩
    obtain rfl := Option.some.inj ((held listed).symm.trans found)
    obtain ⟨short, missed, le⟩ := outlasts graceMs grace
    have := inTime.2.2 short missed
    omega
  · exact absurd le (not_le_of_gt (coming (by simp) s mem))
  · have later := (mem_judged_iff answer (held after)).mp after
    exact ⟨_, later.slot, lt, later.past⟩

end Exclude

/-- No due occurrence is lost, and every recent one that another followed is, exactly where the
newest occurrence is one of the clocks' still in time. -/
theorem due_not_lost_iff {trigger : PredicateSpec} {clocks : List CountedClock}
    {lastDispatched : Option Nat} {time : EvaluationTime} {view : ClockSlotView}
    {lapses : List ClockSlotLapse} (counted : countedClocks trigger = some clocks)
    (viewed : clockSlotView lastDispatched time trigger = .ok (some view))
    (passed : clockSlotLapses lastDispatched time trigger = .ok lapses) :
    ((∀ due ∈ view.dueOccurrence, ∀ lapse ∈ lapses, lapse.occurrenceUnixMs ≠ due) ∧
        FollowedLost clocks lastDispatched time lapses) ↔
      ∀ last ∈ lastDispatched, NewestInTime clocks last time := by
  simp only [clockSlotView, counted, map_eq_pure_bind, bind_ok_iff, pure_ok_iff,
    Option.some.injEq] at viewed
  obtain ⟨_, viewed, rfl⟩ := viewed
  obtain ⟨source, bound⟩ := slotView_due viewed
  cases lastDispatched with
  | none =>
    simp only [clockSlotLapses, counted, pure_ok_iff] at passed
    subst passed
    simp [FollowedLost]
  | some last =>
    simp only [clockSlotLapses, counted, bind_ok_iff] at passed
    obtain ⟨⟨graces, next⟩, answer, passed⟩ := passed
    simp only [Option.mem_def, Option.some.injEq, FollowedLost, forall_eq']
    constructor
    · rintro ⟨kept, -⟩ clock mem o inTime recent
      obtain ⟨due, chosen, le⟩ := bound o (.inr ⟨clock, mem, inTime⟩)
      obtain ⟨other, member, inTime'⟩ := (source due chosen).resolve_left (by simp)
      refine ⟨other, member, due, inTime', Set.not_nonempty_iff_eq_empty.mp fun followed => ?_⟩
      have recent := recent.later ⟨other, member, inTime'.1.1.1⟩ le
        (by exact_mod_cast inTime'.1.1.2)
      obtain ⟨lapse, lost, same⟩ := recent.lost answer passed followed
      exact kept due chosen lapse lost same
    · intro newest
      refine ⟨?_, fun u recent followed => recent.lost answer passed followed⟩
      rintro due chosen lapse lost rfl
      obtain ⟨clock, mem, inTime⟩ := (source _ chosen).resolve_left (by simp)
      obtain ⟨recent, w, slot, lt, past⟩ := recent_of_lost answer passed mem lost inTime
      obtain ⟨other, member, o, inTime', last⟩ := newest clock mem _ inTime recent
      obtain ⟨due, chosen', le⟩ := bound o (.inr ⟨other, member, inTime'⟩)
      obtain rfl := Option.some.inj (chosen.symm.trans chosen')
      have none : w ∉ newerSlots clocks time o := last ▸ Set.notMem_empty w
      exact none ⟨slot, lt_of_le_of_lt le lt, past⟩

namespace Sample

/-- A server's clock in Unix time. -/
def serverClock : ClockSource := .server 0 0 0

def everyDayAt (minute : Nat) (h : minute ≤ 1439) : ClockSchedule :=
  ⟨serverClock, .daily [minute] (by simpa using h)⟩

/-- Due at 08:00, and at 09:00 for half an hour. -/
def morning : PredicateSpec :=
  .any [.clock (everyDayAt 480 (by decide)) none,
    .clock (everyDayAt 540 (by decide)) (some 1800000)]

/-- Ten o'clock on the second day of the epoch. -/
def atTen : EvaluationTime := ⟨122400000, 0, by decide⟩

end Sample

open Sample

/-- The lost slots of a pair last dispatched at noon of the day before: the nine o'clock one,
which lapsed, and the eight o'clock one, which it followed. -/
def Sample.lost : List ClockSlotLapse :=
  [⟨118800000, some 201600000, .expired 1800000⟩, ⟨115200000, some 118800000, .superseded⟩]

theorem morning_due_not_lost_iff :
    ((∀ due ∈ some 115200000, ∀ lapse ∈ lost, lapse.occurrenceUnixMs ≠ due) ∧
        FollowedLost (collectClockSchedules morning) (some 43200000) atTen
          lost) ↔
      ∀ last ∈ some 43200000,
        NewestInTime (collectClockSchedules morning) last atTen :=
  @due_not_lost_iff morning _ _ atTen ⟨some 115200000, some 201600000⟩ lost rfl
    (by decide +kernel) (by decide +kernel)

/-- The eight o'clock slot is due and lost at once. -/
theorem morning_due_and_lost :
    clockSlotView (some 43200000) atTen morning =
        .ok (some ⟨some 115200000, some 201600000⟩) ∧
      clockSlotLapses (some 43200000) atTen morning = .ok lost ∧
      ∃ lapse ∈ lost, lapse.occurrenceUnixMs = 115200000 :=
  ⟨by decide +kernel, by decide +kernel, by decide⟩

end Policy
