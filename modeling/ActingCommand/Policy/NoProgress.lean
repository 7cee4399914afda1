import ActingCommand.Policy.Predicate

/-!
# The no-progress guard

A run that succeeded and changed no reading its dispatch was decided on holds its task on its
instance until one of these readings has another value. The memory keeps the basis of the pair's
latest intent and the guard of its latest admission; which pairs are held is told from the calls
alone.
-/

namespace Policy.NoProgress

open List

/-! ## The last write -/

section LastWrite

@[simp] lemma filter_all {B : Type} (value : Option B) : value.filter (fun _ => true) = value := by
  cases value <;> rfl

variable {N B : Type} (writes : N → Bool) (value : List N → N → Option B) (keeps : N → B → Bool)

/-- What the notes, the newest first, leave held: some of them write it, the others keep it or drop
it. -/
def heldBy : List N → Option B
  | [] => none
  | note :: earlier =>
    if writes note then value earlier note else (heldBy earlier).filter (keeps note)

/-- Held is what the last writing note wrote, if every later note kept it. -/
theorem heldBy_iff (notes : List N) (b : B) :
    heldBy writes value keeps notes = some b ↔ ∃ after note before,
      notes = after ++ note :: before ∧
        (∀ later ∈ after, writes later = false ∧ keeps later b = true) ∧
        writes note = true ∧ value before note = some b := by
  induction notes with
  | nil => simp [heldBy]
  | cons note earlier ih =>
    rw [heldBy]
    cases written : writes note with
    | true =>
      rw [if_pos rfl]
      constructor
      · intro answer
        exact ⟨[], note, earlier, rfl, by simp, written, answer⟩
      · rintro ⟨after, wrote, before, same, kept, -, answer⟩
        cases after with
        | nil =>
          obtain ⟨rfl, rfl⟩ := cons.inj same
          exact answer
        | cons first rest =>
          obtain ⟨rfl, -⟩ := cons.inj same
          simp [written] at kept
    | false =>
      rw [if_neg Bool.false_ne_true, Option.filter_eq_some_iff, ih]
      constructor
      · rintro ⟨⟨after, wrote, before, rfl, kept, last⟩, keeps⟩
        exact ⟨note :: after, wrote, before, rfl, forall_mem_cons.mpr ⟨⟨written, keeps⟩, kept⟩,
          last⟩
      · rintro ⟨after, wrote, before, same, kept, writes, answer⟩
        cases after with
        | nil =>
          obtain ⟨rfl, -⟩ := cons.inj same
          simp [written] at writes
        | cons first rest =>
          obtain ⟨rfl, rfl⟩ := cons.inj same
          rw [forall_mem_cons] at kept
          exact ⟨⟨rest, wrote, before, rfl, kept.2, writes, answer⟩, kept.1.2⟩

end LastWrite

/-! ## Memory -/

/-- A task on an instance. -/
abbrev Pair := String × String

structure BasisReading where
  scope : ScopeSelector
  factKey : String
  value : Option FactValue
  observedAtUnixMs : Option Nat

structure NoProgressBasis where
  decisionId : String
  catalogHash : String
  readings : List BasisReading
  nonempty : readings ≠ []

structure NoProgressGuard where
  dispatchedAtUnixMs : Nat
  basis : NoProgressBasis

structure NoProgressMemory where
  pending : Pair → Option NoProgressBasis
  armed : Pair → Option NoProgressGuard

structure DispatchIntent where
  taskId : String
  instanceId : String
  decisionId : String
  catalogHash : String

/-- A reading is present and above confidence 0. -/
def currentReading (facts : List ObservedFact) (scope : ScopeSelector) (factKey : String) :
    Option (FactValue × Nat) :=
  ((findFact facts scope factKey).filter (0 < ·.confidenceMilli)).map fun fact =>
    (fact.value, fact.observedAtUnixMs)

/-- Whether one of the readings has another value now; no reading now is no change. -/
def changed (readings : List BasisReading) (facts : List ObservedFact) : Bool :=
  readings.any fun reading =>
    (currentReading facts reading.scope reading.factKey).any (reading.value ≠ some ·.1)

def maxNoProgressBasisKeys : Nat := 32

def basisOf (facts : List ObservedFact) (intent : DispatchIntent)
    (keys : List (ScopeSelector × String)) : Option NoProgressBasis :=
  if bounds : keys ≠ [] ∧ keys.length ≤ maxNoProgressBasisKeys then
    some ⟨intent.decisionId, intent.catalogHash, keys.map fun key =>
      let reading := currentReading facts key.1 key.2
      ⟨key.1, key.2, reading.map (·.1), reading.map (·.2)⟩, by simpa using bounds.1⟩
  else none

/-- What a call writes: the pending basis of a pair, an admission, or an observation, whose facts
are `none` where they cannot be projected. -/
inductive Note
  | captured (pair : Pair) (basis : Option NoProgressBasis)
  | admitted (pair : Pair) (decisionId : String) (admittedAtUnixMs : Nat)
  | observed (facts : Option (List ObservedFact)) (enabled : String → Bool)

/-- The keys of an intent's basis are `none` where reading them fails, which ends the capture after
the pair's earlier basis is dropped, and `some none` for a task without one. -/
abbrev BasisKeys := DispatchIntent → Option (Option (List (ScopeSelector × String)))

def captureEach (facts : List ObservedFact) (basisKeys : BasisKeys) :
    List DispatchIntent → List Note
  | [] => []
  | intent :: rest =>
    let pair := (intent.taskId, intent.instanceId)
    match basisKeys intent with
    | none => [.captured pair none]
    | some keys =>
      .captured pair (keys.bind (basisOf facts intent)) :: captureEach facts basisKeys rest

inductive Call
  | capture (facts : Option (List ObservedFact)) (basisKeys : BasisKeys)
      (intents : List DispatchIntent) (enabled : String → Bool)
  | admitDispatch (taskId instanceId decisionId : String) (admittedAtUnixMs : Nat)
  | observe (facts : Option (List ObservedFact)) (enabled : String → Bool)

def Call.notes : Call → List Note
  | .capture facts basisKeys intents enabled => facts.elim [] fun facts =>
      captureEach facts basisKeys (intents.filter (enabled ·.instanceId))
  | .admitDispatch taskId instanceId decisionId admittedAtUnixMs =>
    [.admitted (taskId, instanceId) decisionId admittedAtUnixMs]
  | .observe facts enabled => [.observed facts enabled]

namespace NoProgressMemory

variable (memory : NoProgressMemory)

/-- An admitted dispatch arms the pair's guard with its own pending basis, or leaves it without. -/
def admitDispatch (pair : Pair) (decisionId : String) (admittedAtUnixMs : Nat) : NoProgressMemory :=
  let basis := (memory.pending pair).filter (·.decisionId = decisionId)
  { pending := if basis.isSome then Function.update memory.pending pair none else memory.pending
    armed := Function.update memory.armed pair (basis.map (⟨admittedAtUnixMs, ·⟩)) }

/-- The pairs of an instance that is not enabled are forgotten, and guards with a changed reading
are released. -/
def observe (facts : Option (List ObservedFact)) (enabled : String → Bool) : NoProgressMemory where
  pending pair := (memory.pending pair).filter fun _ => enabled pair.2
  armed pair := (memory.armed pair).filter fun guard =>
    enabled pair.2 && !facts.any (changed guard.basis.readings)

def note : Note → NoProgressMemory
  | .captured pair basis => { memory with pending := Function.update memory.pending pair basis }
  | .admitted pair decisionId admittedAtUnixMs =>
    memory.admitDispatch pair decisionId admittedAtUnixMs
  | .observed facts enabled => memory.observe facts enabled

/-- The memory after the notes, the newest first. -/
def run : List Note → NoProgressMemory
  | [] => ⟨fun _ => none, fun _ => none⟩
  | last :: earlier => (run earlier).note last

end NoProgressMemory

structure TaskRuntimeSnapshot where
  terminalState : Option TaskTerminalState
  lastDispatchedUnixMs : Option Nat

/-- The guard that holds the pair; the evaluation's own reruns and requests are never held. -/
def hold (own : Bool) (guards : Pair → Option NoProgressGuard) (pair : Pair)
    (lastResult : Option TaskRuntimeSnapshot) (facts : List ObservedFact) (catalogHash : String) :
    Option NoProgressGuard :=
  if own then none
  else (guards pair).filter fun guard =>
    guard.basis.catalogHash = catalogHash && lastResult.any (fun state =>
      state.terminalState = some .succeeded &&
        state.lastDispatchedUnixMs = some guard.dispatchedAtUnixMs) &&
      !guard.basis.readings.isEmpty && !changed guard.basis.readings facts

/-! ## What the calls tell -/

def Note.captures (pair : Pair) : Note → Bool
  | .captured other _ => other = pair
  | _ => false

def Note.admits (pair : Pair) : Note → Bool
  | .admitted other _ _ => other = pair
  | _ => false

def Note.basis : Note → Option NoProgressBasis
  | .captured _ basis => basis
  | _ => none

def Note.guard (pending : Option NoProgressBasis) : Note → Option NoProgressGuard
  | .admitted _ decisionId admittedAtUnixMs =>
    (pending.filter (·.decisionId = decisionId)).map (⟨admittedAtUnixMs, ·⟩)
  | _ => none

/-- The note leaves the pair's pending basis: it neither arms it nor turns the guard off. -/
def Note.leavesPending (pair : Pair) (basis : NoProgressBasis) : Note → Bool
  | .captured _ _ => true
  | .admitted other decisionId _ => !(other = pair && basis.decisionId = decisionId)
  | .observed _ enabled => enabled pair.2

/-- The note leaves the pair's guard: an observation finds it turned on and its readings as they
were. -/
def Note.leavesArmed (pair : Pair) (basis : NoProgressBasis) : Note → Bool
  | .observed facts enabled => enabled pair.2 && !facts.any (changed basis.readings)
  | _ => true

/-- The basis captured for the dispatch, still pending after the notes. -/
def Captured (pair : Pair) (decisionId : String) (basis : NoProgressBasis) (notes : List Note) :
    Prop :=
  basis.decisionId = decisionId ∧ ∃ after before,
    notes = after ++ .captured pair (some basis) :: before ∧
      ∀ note ∈ after, note.captures pair = false ∧ note.leavesPending pair basis = true

open NoProgressMemory

section Runs

variable (pair : Pair) (notes : List Note)

lemma pending_eq : (run notes).pending pair = heldBy (Note.captures pair)
    (fun _ note => note.basis) (fun note basis => note.leavesPending pair basis) notes := by
  induction notes with
  | nil => rfl
  | cons note earlier ih =>
    rw [heldBy, ← ih, run]
    cases note with
    | captured other basis =>
      by_cases own : other = pair
      · simp [note, Note.captures, Note.basis, own]
      · simp [note, Note.captures, Note.leavesPending, own, Ne.symm own]
    | observed facts enabled => rfl
    | admitted other decisionId admittedAtUnixMs =>
      simp only [note, admitDispatch, Note.captures, Note.leavesPending,
        Bool.false_eq_true, if_false]
      by_cases own : other = pair
      · subst other
        cases pending : (run earlier).pending pair with
        | none => simp [pending]
        | some basis =>
          by_cases same : basis.decisionId = decisionId <;> simp [same, pending, Option.filter_some]
      · split <;> simp [own, Ne.symm own]

lemma armed_eq : (run notes).armed pair = heldBy (Note.admits pair)
    (fun earlier note => note.guard ((run earlier).pending pair))
    (fun note guard => note.leavesArmed pair guard.basis) notes := by
  induction notes with
  | nil => rfl
  | cons note earlier ih =>
    rw [heldBy, ← ih, run]
    cases note with
    | captured other basis => simp [note, Note.admits, Note.leavesArmed]
    | observed facts enabled => rfl
    | admitted other decisionId admittedAtUnixMs =>
      by_cases own : other = pair
      · simp [note, admitDispatch, Note.admits, Note.guard, own]
      · simp [note, admitDispatch, Note.admits, Note.leavesArmed, own, Ne.symm own]

lemma pending_iff {basis} : (run notes).pending pair = some basis ↔
    Captured pair basis.decisionId basis notes := by
  rw [pending_eq, heldBy_iff]
  constructor
  · rintro ⟨after, note, before, rfl, kept, captures, wrote⟩
    cases note with
    | captured other written =>
      obtain rfl : other = pair := by simpa [Note.captures] using captures
      obtain rfl : written = some basis := wrote
      exact ⟨rfl, after, before, rfl, kept⟩
    | admitted | observed => cases captures
  · rintro ⟨-, after, before, rfl, kept⟩
    exact ⟨after, _, before, rfl, kept, by simp [Note.captures], rfl⟩

theorem armed_iff {guard} : (run notes).armed pair = some guard ↔
    ∃ since before, notes = since ++
        .admitted pair guard.basis.decisionId guard.dispatchedAtUnixMs :: before ∧
      (∀ note ∈ since, note.admits pair = false ∧ note.leavesArmed pair guard.basis = true) ∧
      Captured pair guard.basis.decisionId guard.basis before := by
  rw [armed_eq, heldBy_iff]
  constructor
  · rintro ⟨since, note, before, rfl, kept, admits, armed⟩
    cases note with
    | admitted other decisionId admittedAtUnixMs =>
      obtain rfl : other = pair := by simpa [Note.admits] using admits
      obtain ⟨basis, matched, rfl⟩ := Option.map_eq_some_iff.mp armed
      obtain ⟨pending, own⟩ := Option.filter_eq_some_iff.mp matched
      obtain rfl := of_decide_eq_true own
      exact ⟨since, before, rfl, kept, (pending_iff other before).mp pending⟩
    | captured | observed => cases admits
  · rintro ⟨since, before, rfl, kept, captured⟩
    refine ⟨since, _, before, rfl, kept, by simp [Note.admits], ?_⟩
    simp [Note.guard, (pending_iff pair before).mpr captured, Option.filter_some]

end Runs

/-- A pair is held exactly when the dispatch of its last admission had its basis pending, is the
pair's latest run and succeeded under the same catalog, and no observation since, nor this
evaluation, turned the guard off or read another value; its own reruns are never held. -/
theorem held_iff (calls : List Call) (pair : Pair) (own : Bool)
    (lastResult : Option TaskRuntimeSnapshot) (facts : List ObservedFact) (catalogHash : String) :
    (hold own (run (calls.flatMap Call.notes).reverse).armed pair lastResult facts
        catalogHash).isSome = true ↔
      own = false ∧ ∃ since decisionId admittedAtUnixMs before basis,
        (calls.flatMap Call.notes).reverse =
          since ++ .admitted pair decisionId admittedAtUnixMs :: before ∧
        (∀ note ∈ since, note.admits pair = false ∧ note.leavesArmed pair basis = true) ∧
        Captured pair decisionId basis before ∧
        lastResult = some ⟨some .succeeded, some admittedAtUnixMs⟩ ∧
        basis.catalogHash = catalogHash ∧ changed basis.readings facts = false := by
  generalize (calls.flatMap Call.notes).reverse = notes
  cases own with
  | true => simp [hold]
  | false =>
    have latest : ∀ time, (lastResult.any fun state => state.terminalState = some .succeeded &&
        state.lastDispatchedUnixMs = some time) = true ↔
          lastResult = some ⟨some .succeeded, some time⟩ := by
      intro time
      cases lastResult with
      | none => simp
      | some state =>
        cases state
        simp
    simp only [hold, Bool.false_eq_true, if_false, Option.isSome_iff_exists,
      Option.filter_eq_some_iff, armed_iff, Bool.and_eq_true, decide_eq_true_eq, latest,
      Bool.not_eq_true', true_and]
    constructor
    · rintro ⟨guard, ⟨since, before, same, kept, captured⟩, ⟨⟨hash, run⟩, -⟩, unchanged⟩
      exact ⟨since, _, _, before, guard.basis, same, kept, captured, run, hash, unchanged⟩
    · rintro ⟨since, decisionId, time, before, basis, same, kept, captured, run, hash, unchanged⟩
      obtain rfl := captured.1
      exact ⟨⟨time, basis⟩, ⟨since, before, same, kept, captured⟩, ⟨⟨hash, run⟩,
        by simpa using basis.nonempty⟩, unchanged⟩

namespace Sample

def stamina : ObservedFact :=
  ⟨.ofInstance "game-a", "resource.stamina", .scalar (.integer 40), 10, none, 1000⟩

/-- Captures the basis of an intent to farm: what it read of the stamina. -/
def capture (decisionId : String) : Call :=
  .capture (some [stamina]) (fun _ => some (some [(stamina.scope, stamina.factKey)]))
    [⟨"farm", "game-a", decisionId, "catalog"⟩] fun _ => true

def admitDispatch : Call := .admitDispatch "farm" "game-a" "first" 20

def heldAfter (own : Bool) (calls : List Call) : Bool :=
  (hold own (run (calls.flatMap Call.notes).reverse).armed ("farm", "game-a")
    (some ⟨some .succeeded, some 20⟩) [stamina] "catalog").isSome

/-- The basis of an intent to farm. -/
def basis (decisionId : String) : NoProgressBasis :=
  ⟨decisionId, "catalog", [⟨stamina.scope, stamina.factKey, some stamina.value, some 10⟩], by simp⟩

/-- A basis was captured for the run's dispatch at some time, the run is the pair's last admission,
and no observation since, nor this evaluation, reads another value. -/
def Unchanged (calls : List Call) : Prop :=
  ∃ since decisionId before, (calls.flatMap Call.notes).reverse =
      since ++ .admitted ("farm", "game-a") decisionId 20 :: before ∧
    .captured ("farm", "game-a") (some (basis decisionId)) ∈ before ∧
    (∀ note ∈ since, note.admits ("farm", "game-a") = false ∧ ∀ facts enabled,
      note = .observed (some facts) enabled → changed (basis decisionId).readings facts = false) ∧
    changed (basis decisionId).readings [stamina] = false

/-- The run succeeded and the stamina reads the value of its admission. The pair is held, but not
where another intent of the pair replaced the basis before the admission, where the guard was off
for one observation, or where the evaluation reruns the task itself. -/
theorem captured_run_not_held :
    (Unchanged [capture "first", admitDispatch] ∧
      heldAfter false [capture "first", admitDispatch] = true ∧
      heldAfter true [capture "first", admitDispatch] = false) ∧
    (Unchanged [capture "first", capture "second", admitDispatch] ∧
      heldAfter false [capture "first", capture "second", admitDispatch] = false) ∧
    Unchanged [capture "first", admitDispatch, .observe (some [stamina]) fun _ => false] ∧
      heldAfter false [capture "first", admitDispatch,
        .observe (some [stamina]) fun _ => false] = false := by
  refine ⟨⟨⟨[], "first", _, rfl, .head _, by simp, by decide⟩, by decide, by decide⟩,
    ⟨⟨[], "first", _, rfl, .tail _ (.head _), by simp, by decide⟩, by decide⟩,
    ⟨[_], "first", _, rfl, .head _, ?_, by decide⟩, by decide⟩
  rintro note (_ | ⟨_, ⟨⟩⟩)
  refine ⟨rfl, fun facts enabled same => ?_⟩
  cases same
  decide

end Sample

end Policy.NoProgress
