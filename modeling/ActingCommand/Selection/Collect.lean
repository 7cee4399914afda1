import ActingCommand.Selection.Verdict

/-!
# The collect option

Under the collect option a rule that meets an unknown input neither ends the evaluation nor
drops the candidate nor substitutes a value: the candidate's verdict lists every unknown input,
and its known inputs with the last instant each stays known. A gate decided against the
candidate still rejects it.
-/

namespace Selection

open Machine ThreeValued List Option Except Prod

structure UnknownInput where
  ruleId : String
  input : ValueRef
  reason : UnknownReason
deriving DecidableEq

inductive CollectedVerdict
  | scored (scoreMilli : Int)
  | gateRejected (gateId : String)
  | unknown (inputs : List UnknownInput)

structure CollectedCandidate where
  candidateId : String
  verdict : CollectedVerdict
  knownInputs : List KnownInput

section

variable (policy : SelectionPolicy)

def SelectionPolicy.usesRecordLists : Bool :=
  policy.facts.any fun declaration => declaration.valueType.isRecordList

/-- Reads that note what they meet. -/
def Reads.noting : Reads := ⟨true, [], [], .empty⟩

def SelectionTables.none : SelectionTables := ⟨∅⟩

def noteUnknown (unknown : List UnknownInput) (ruleId : String) (input : ValueRef)
    (reason : UnknownReason) : List UnknownInput :=
  if ⟨ruleId, input, reason⟩ ∈ unknown then unknown else unknown ++ [⟨ruleId, input, reason⟩]

/-- Notes the unknown inputs of one gate, in the order they were met. -/
def noteAll (ruleId : String) (unknown : List UnknownInput)
    (inputs : List (ValueRef × UnknownReason)) : List UnknownInput :=
  inputs.foldl (fun unknown entry => noteUnknown unknown ruleId entry.1 entry.2) unknown

/-- How the gates leave a candidate: rejected, or with what was unknown so far. -/
inductive GatesCollected
  | rejected (gateId : String) (known : List KnownInput)
  | passed (reads : Reads) (unknown : List UnknownInput)

def collectGates (candidate : Candidate) (resolver : Resolver) :
    List HardGate → Reads → List UnknownInput → GatesCollected
  | [], reads, unknown => .passed reads unknown
  | gate :: rest, reads, unknown =>
    let start := reads.unknown.length
    match truth candidate resolver gate.predicate reads with
    | (.holds, reads) =>
      collectGates candidate resolver rest (reads.truncateUnknown start) unknown
    | (.fails, reads) => .rejected gate.gateId reads.known
    | (.unknown _, reads) =>
      collectGates candidate resolver rest (reads.truncateUnknown start)
        (noteAll gate.gateId unknown (reads.unknown.drop start))

/-- The terms; once an input is unknown they are read only to list their own unknown inputs. -/
def collectTerms (candidate : Candidate) (resolver : Resolver) :
    List ScoringTerm → Reads → List UnknownInput → Option Int →
      Except SelectionError (Reads × List UnknownInput × Option Int)
  | [], reads, unknown, total => pure (reads, unknown, total)
  | term :: rest, reads, unknown, total =>
    match (resolver.read term.value candidate).bind term.transform.apply with
    | .error reason =>
      collectTerms candidate resolver rest reads
        (noteUnknown unknown term.termId term.value reason) none
    | .ok transformedMilli =>
      let reads := reads.recordKnown resolver term.value
      match total with
      | none => collectTerms candidate resolver rest reads unknown none
      | some sum => do
        let termId := term.termId
        let contributionMilli ← Call.okOr
          (toI64 (contributionOf transformedMilli term.weightMilli))
          (SelectionError.mk .arithmeticOverflow s!"term `{termId}` overflows a 64-bit milli score")
        collectTerms candidate resolver rest reads unknown (some (sum + contributionMilli))

/-- The verdict once gates and terms are read. -/
def collectVerdict (candidateId : String) (unknown : List UnknownInput) (total : Option Int) :
    Except SelectionError CollectedVerdict :=
  if unknown = [] then do
    let scoreMilli ← Call.okOr (toI64 (total.getD 0))
      (SelectionError.mk .arithmeticOverflow
        s!"candidate `{candidateId}` overflows a 64-bit milli score")
    pure (.scored scoreMilli)
  else pure (.unknown unknown)

def collectCandidate (resolver : Resolver) (candidate : Candidate) :
    Except SelectionError CollectedCandidate :=
  match collectGates candidate resolver policy.gates .noting [] with
  | .rejected gateId known => pure ⟨candidate.candidateId, .gateRejected gateId, known⟩
  | .passed reads unknown => do
    let total := if unknown = [] then some 0 else none
    let (reads, unknown, total) ← collectTerms candidate resolver policy.scoring reads unknown total
    let verdict ← collectVerdict candidate.candidateId unknown total
    pure ⟨candidate.candidateId, verdict, reads.known⟩

/-- The resolver of a collect call: no record list and no table. -/
def collectResolver (facts : SelectionFactSnapshot) (nowUnixMs : Nat) : Resolver :=
  .new policy facts [] .none nowUnixMs

def collectAll (policy : SelectionPolicy) (resolver : Resolver) :
    List Candidate → Except SelectionError (List CollectedCandidate)
  | [] => pure []
  | candidate :: rest => do
    let collected ← collectCandidate policy resolver candidate
    let others ← collectAll policy resolver rest
    pure (collected :: others)

/-- Evaluates every candidate under the collect option. -/
def evaluateCollect (candidates : List Candidate) (facts : SelectionFactSnapshot)
    (nowUnixMs : Nat) : Except SelectionError (List CollectedCandidate) := do
  policy.validate
  refuseIf (policy.usesRecordLists = true) .typeMismatch "value_type=record_list option=collect"
  refuseIf (policy.usesTables = true) .typeMismatch "tables=declared option=collect"
  checkCandidateSet candidates
  collectAll policy (collectResolver policy facts nowUnixMs) candidates

end

/-! ## One read, decoded and noted -/

/-- Reads a reference, decodes the value and notes the reference as known or unknown. -/
def noteRead {α : Type} (decode : ScalarValue → Except UnknownReason α) (reference : ValueRef)
    (candidate : Candidate) (resolver : Resolver) (reads : Reads) :
    Except UnknownReason α × Reads :=
  let (read, reads) := resolver.readNoting reference candidate reads
  match read.bind decode with
  | .ok value => (.ok value, reads.recordKnown resolver reference)
  | .error reason => (.error reason, reads.recordUnknown reference reason)

def truthOf : Except UnknownReason Bool → Truth
  | .ok holds => .ofBool holds
  | .error reason => .unknown reason

section NoteRead

variable {α : Type} {candidate : Candidate} {resolver : Resolver}

lemma leaf_eq (reference : ValueRef) (reads : Reads) (decides : ScalarValue → Option Bool) :
    leaf reference candidate resolver reads decides =
      let noted := noteRead (fun value => Call.okOr (decides value) UnknownReason.typeMismatch)
        reference candidate resolver reads
      (truthOf noted.1, noted.2) := by
  simp only [leaf, noteRead]
  cases (resolver.readNoting reference candidate reads).1.bind fun value =>
    Call.okOr (decides value) UnknownReason.typeMismatch with
  | ok holds => rfl
  | error reason => rfl

lemma integerSide_eq (reference : ValueRef) (reads : Reads) :
    integerSide reference candidate resolver reads =
      noteRead integerOf reference candidate resolver reads := by
  simp only [integerSide, noteRead]
  cases (resolver.readNoting reference candidate reads).1.bind integerOf with
  | ok value => rfl
  | error reason => rfl

lemma noteRead_fst (decode : ScalarValue → Except UnknownReason α) (reference : ValueRef)
    (reads : Reads) :
    (noteRead decode reference candidate resolver reads).1 =
      (resolver.read reference candidate).bind decode := by
  simp only [noteRead, readNoting_fst]
  split
  · rename_i value held
    exact held.symm
  · rename_i reason held
    exact held.symm

end NoteRead

/-! ## What a recording pass notes -/

/-- What a pass that records leaves: nothing known is forgotten; a decided one leaves the unknown
inputs as they were, an undecided one adds at least one. -/
structure Noted (before after : Reads) (undecided : Prop) : Prop where
  recording : after.recording = true
  known : before.known ⊆ after.known
  decided : ¬ undecided → after.unknown = before.unknown
  undecided : undecided → ∃ added, added ≠ [] ∧ after.unknown = before.unknown ++ added

variable {before after : Reads} {p : Prop}

lemma Noted.congr {q : Prop} (noted : Noted before after p) (same : p ↔ q) : Noted before after q :=
  propext same ▸ noted

lemma Noted.trans {middle : Reads} {q : Prop} (first : Noted before middle p)
    (second : Noted middle after q) : Noted before after (p ∨ q) where
  recording := second.recording
  known := List.Subset.trans first.known second.known
  decided open' := by
    rw [second.decided fun own => open' (.inr own), first.decided fun own => open' (.inl own)]
  undecided either := by
    by_cases left : p
    · obtain ⟨added, some, shape⟩ := first.undecided left
      by_cases right : q
      · obtain ⟨more, -, later⟩ := second.undecided right
        exact ⟨added ++ more, by simp [some], by rw [later, shape, append_assoc]⟩
      · exact ⟨added, some, by rw [second.decided right, shape]⟩
    · obtain ⟨added, some, shape⟩ := second.undecided (either.resolve_left left)
      exact ⟨added, some, by rw [shape, first.decided left]⟩

lemma Noted.grows (noted : Noted before after p) : before.unknown ⊆ after.unknown := by
  by_cases undecided : p
  · obtain ⟨added, -, shape⟩ := noted.undecided undecided
    rw [shape]
    exact subset_append_left _ _
  · rw [noted.decided undecided]
    exact List.Subset.refl _

variable {reads : Reads}

section Notes

variable {α : Type} {candidate : Candidate} {resolver : Resolver}

/-- A read leaves the notes alone but for its marks. -/
theorem readNoting_notes (reference : ValueRef) (reads : Reads) :
    (resolver.readNoting reference candidate reads).2.recording = reads.recording ∧
      (resolver.readNoting reference candidate reads).2.known = reads.known ∧
      (resolver.readNoting reference candidate reads).2.unknown = reads.unknown := by
  unfold Resolver.readNoting
  split
  · split <;> exact ⟨rfl, rfl, rfl⟩
  · split <;> exact ⟨rfl, rfl, rfl⟩

lemma recordKnown_spec {reads : Reads} (reference : ValueRef) (recording : reads.recording = true) :
    (reads.recordKnown resolver reference).recording = true ∧
      reads.known ⊆ (reads.recordKnown resolver reference).known ∧
      (reads.recordKnown resolver reference).unknown = reads.unknown ∧
      ∃ known ∈ (reads.recordKnown resolver reference).known, known.input = reference := by
  unfold Reads.recordKnown
  split
  · refine ⟨recording, fun _ listed => mem_append_left _ listed, rfl, ?_⟩
    exact ⟨_, mem_append_right _ mem_cons_self, rfl⟩
  rename_i present
  simp only [recording, Bool.true_and, Bool.not_eq_true', Bool.not_eq_false, List.any_eq_true,
    decide_eq_true_eq] at present
  exact ⟨recording, fun _ listed => listed, rfl, present⟩

/-- A decoded value notes its reference as known, anything else as unknown. -/
theorem noteRead_notes (decode : ScalarValue → Except UnknownReason α) (reference : ValueRef)
    {reads : Reads} (recording : reads.recording = true) :
    Noted reads (noteRead decode reference candidate resolver reads).2
        (isUnknown (noteRead decode reference candidate resolver reads).1 = true) ∧
      (isUnknown (noteRead decode reference candidate resolver reads).1 = false →
        ∃ known ∈ (noteRead decode reference candidate resolver reads).2.known,
          known.input = reference) ∧
      (isUnknown (noteRead decode reference candidate resolver reads).1 = true →
        ∃ reason, (noteRead decode reference candidate resolver reads).2.unknown =
          reads.unknown ++ [(reference, reason)]) := by
  obtain ⟨sameRecording, sameKnown, sameUnknown⟩ :=
    @readNoting_notes candidate resolver reference reads
  have still := sameRecording.trans recording
  simp only [noteRead]
  split
  · obtain ⟨kept, grows, unchanged, noted⟩ := @recordKnown_spec resolver _ reference still
    rw [sameKnown] at grows
    refine ⟨⟨kept, grows, fun _ => unchanged.trans sameUnknown, ?_⟩, fun _ => noted, ?_⟩
    · intro impossible
      cases impossible
    · intro impossible
      cases impossible
  rename_i reason _
  have shape : ((resolver.readNoting reference candidate reads).2.recordUnknown reference
      reason).unknown = reads.unknown ++ [(reference, reason)] := by
    simp [Reads.recordUnknown, still, sameUnknown]
  have others : ((resolver.readNoting reference candidate reads).2.recordUnknown reference
      reason).recording = true ∧
      ((resolver.readNoting reference candidate reads).2.recordUnknown reference reason).known =
        reads.known := by
    simp [Reads.recordUnknown, still, sameKnown, and_self]
  refine ⟨⟨others.1, ?_, fun absurd' => (absurd' rfl).elim, fun _ => ?_⟩, ?_, fun _ => ?_⟩
  · rw [others.2]
    exact fun _ listed => listed
  · exact ⟨_, cons_ne_nil _ _, shape⟩
  · intro impossible
    cases impossible
  · exact ⟨reason, shape⟩

def Undecided (value : Truth) : Prop := ∃ reason, value = .unknown reason

lemma undecided_truthOf {read} : Undecided (truthOf read) ↔ isUnknown read = true := by
  cases read with
  | ok holds => cases holds <;> simp [Undecided, truthOf, Truth.ofBool, isUnknown]
  | error reason => simp [Undecided, truthOf, isUnknown]

lemma undecided_negate {value : Truth} : Undecided value.negate ↔ Undecided value := by
  cases value <;> simp [Undecided, Truth.negate]

/-- How the members of a list met so far left the reads: the unknown inputs of those undecided
follow the ones from before the list. -/
structure Midway (start : Nat) (base added : List (ValueRef × UnknownReason))
    (undecided : Option UnknownReason) (reads : Reads) : Prop where
  recording : reads.recording = true
  shape : reads.unknown = base ++ added
  start : base.length = start
  added : undecided = none ↔ added = []

/-- How a list of members leaves the reads once it is done. -/
structure MidwayNoted (before : Reads) (base added : List (ValueRef × UnknownReason))
    (value : Truth) (after : Reads) : Prop where
  recording : after.recording = true
  known : before.known ⊆ after.known
  decided : ¬ Undecided value → after.unknown = base
  undecided : Undecided value →
    ∃ more, added ++ more ≠ [] ∧ after.unknown = base ++ (added ++ more)

lemma MidwayNoted.noted {value : Truth} (done : MidwayNoted reads reads.unknown [] value after) :
    Noted reads after (Undecided value) :=
  ⟨done.recording, done.known, done.decided, fun open' => by simpa using done.undecided open'⟩

variable {start : Nat} {base added : List (ValueRef × UnknownReason)}
  {undecided : Option UnknownReason}

lemma Midway.truncated (midway : Midway start base added undecided reads)
    (noted : Noted reads after False) : (after.truncateUnknown start).unknown = base := by
  simp [Reads.truncateUnknown, noted.decided not_false, midway.shape, ← midway.start]

/-- A member that is decided and does not end the list leaves it where it was. -/
theorem Midway.kept (midway : Midway start base added undecided reads)
    (noted : Noted reads after False) : Midway start base added undecided after :=
  ⟨noted.recording, (noted.decided not_false).trans midway.shape, midway.start, midway.added⟩

/-- An undecided member leaves the list undecided, with its unknown inputs noted. -/
theorem Midway.opened (midway : Midway start base added undecided reads)
    (noted : Noted reads after True) (reason : UnknownReason) :
    ∃ more, more ≠ [] ∧ after.unknown = base ++ (added ++ more) ∧
      Midway start base (added ++ more) (undecided.or (some reason)) after := by
  obtain ⟨more, some, shape⟩ := noted.undecided trivial
  have joined : after.unknown = base ++ (added ++ more) := by
    rw [shape, midway.shape, append_assoc]
  refine ⟨more, some, joined, noted.recording, joined, midway.start, ?_⟩
  cases undecided <;> simp [some]

/-- The truth value of a comparison of two sides as they were read. -/
def compareSides (op : IntegerCompareOp) (mul : Option Nat) (add : Option Int) :
    Except UnknownReason Int → Except UnknownReason Int → Truth
  | .error reason, _ => .unknown reason
  | .ok _, .error reason => .unknown reason
  | .ok left, .ok right => .ofBool (op.holds left (scaled mul add right))

lemma undecided_compareSides {op mul add left right} :
    Undecided (compareSides op mul add left right) ↔
      isUnknown left = true ∨ isUnknown right = true := by
  cases left with
  | error reason => simp [compareSides, Undecided, isUnknown]
  | ok value =>
    cases right with
    | error reason => simp [compareSides, Undecided, isUnknown]
    | ok other =>
      cases held : op.holds value (scaled mul add other) <;>
        simp [compareSides, Undecided, isUnknown, held, Truth.ofBool]

/-- Both sides of a comparison are read, the left one first. -/
theorem truth_integerCompare (left right : ValueRef) (op : IntegerCompareOp) (mul : Option Nat)
    (add : Option Int) (reads : Reads) :
    truth candidate resolver (.integerCompare left op right mul add) reads =
      let first := noteRead integerOf left candidate resolver reads
      let second := noteRead integerOf right candidate resolver first.2
      (compareSides op mul add first.1 second.1, second.2) := by
  simp only [truth, integerSide_eq]
  cases (noteRead integerOf left candidate resolver reads).1 with
  | error reason => rfl
  | ok value =>
    cases (noteRead integerOf right candidate resolver
      (noteRead integerOf left candidate resolver reads).2).1 with
    | error reason => rfl
    | ok other => rfl

/-- A conjunction notes the unknown inputs of its undecided members, unless it is decided. -/
theorem truthAll_notes {of}
    (each : ∀ inner ∈ of, ∀ {reads : Reads}, reads.recording = true →
      Noted reads (truth candidate resolver inner reads).2
        (Undecided (truth candidate resolver inner reads).1))
    {start : Nat} {base added}
    {undecided} {reads : Reads}
    (midway : Midway start base added undecided reads) :
    MidwayNoted reads base added (truthAll candidate resolver start undecided of reads).1
      (truthAll candidate resolver start undecided of reads).2 := by
  induction of generalizing added undecided reads with
  | nil =>
    cases undecided with
    | none =>
      rw [truthAll]
      refine ⟨midway.recording, List.Subset.refl _, fun _ => ?_, fun open' => ?_⟩
      · rw [midway.shape, midway.added.mp rfl, append_nil]
      · simp [Undecided] at open'
    | some reason =>
      rw [truthAll]
      refine ⟨midway.recording, List.Subset.refl _, fun open' => (open' ⟨reason, rfl⟩).elim,
        fun _ => ⟨[], ?_, by rw [append_nil, midway.shape]⟩⟩
      rw [append_nil]
      exact fun empty => some_ne_none _ (midway.added.mpr empty)
  | cons inner rest ih =>
    rw [forall_mem_cons] at each
    have noted := each.1 midway.recording
    rw [truthAll]
    generalize truth candidate resolver inner reads = result at noted
    obtain ⟨value, after⟩ := result
    cases value with
    | fails =>
      have closed : Noted reads after False := noted.congr (by simp [Undecided])
      exact ⟨closed.recording, closed.known, fun _ => midway.truncated closed,
        fun open' => by simp [Undecided] at open'⟩
    | holds =>
      have closed : Noted reads after False := noted.congr (by simp [Undecided])
      have done := ih each.2 (midway.kept closed)
      exact ⟨done.recording, List.Subset.trans closed.known done.known, done.decided,
        done.undecided⟩
    | unknown reason =>
      have opened : Noted reads after True := noted.congr (by simp [Undecided])
      obtain ⟨more, some, -, later⟩ := midway.opened opened reason
      have done := ih each.2 later
      refine ⟨done.recording, List.Subset.trans opened.known done.known, done.decided,
        fun open' => ?_⟩
      obtain ⟨others, -, shape⟩ := done.undecided open'
      exact ⟨more ++ others, by simp [some], by rw [← append_assoc added, shape]⟩

lemma Midway.fresh (recording : reads.recording = true) :
    Midway reads.unknown.length reads.unknown [] none reads :=
  ⟨recording, (append_nil _).symm, rfl, by simp⟩

/-- A pass that records leaves the unknown inputs as they were exactly when it decides. -/
theorem truth_notes (predicate : Predicate) {reads : Reads} (recording : reads.recording = true) :
    Noted reads (truth candidate resolver predicate reads).2
      (Undecided (truth candidate resolver predicate reads).1) := by
  induction predicate using Predicate.induct generalizing reads with
  | comparison compares =>
    rw [compares.truth_eq, leaf_eq]
    exact (noteRead_notes _ _ recording).1.congr undecided_truthOf.symm
  | integerCompare left op right mul add =>
    rw [truth_integerCompare]
    have first := (@noteRead_notes _ candidate resolver integerOf left reads recording).1
    have second := (@noteRead_notes _ candidate resolver integerOf right _ first.recording).1
    exact (first.trans second).congr undecided_compareSides.symm
  | all of each =>
    rw [truth]
    exact (truthAll_notes each (.fresh recording)).noted
  | not of inner =>
    rw [truth_not]
    exact (inner recording).congr undecided_negate.symm
  | any of negated =>
    rw [truth_any]
    exact negated recording

end Notes

/-! ## What a collected verdict says -/

lemma noteUnknown_ne_nil (unknown : List UnknownInput) (ruleId : String) (input : ValueRef)
    (reason : UnknownReason) : noteUnknown unknown ruleId input reason ≠ [] := by
  unfold noteUnknown
  split
  · rename_i listed
    exact ne_nil_of_mem listed
  · simp

lemma noteAll_eq_nil_iff {ruleId : String} {unknown inputs} :
    noteAll ruleId unknown inputs = [] ↔ unknown = [] ∧ inputs = [] := by
  induction inputs generalizing unknown with
  | nil => simp [noteAll]
  | cons entry rest ih =>
    have step : noteAll ruleId unknown (entry :: rest) =
        noteAll ruleId (noteUnknown unknown ruleId entry.1 entry.2) rest := rfl
    rw [step, ih]
    simp [noteUnknown_ne_nil]

/-- The term reads a known value and contributes so much. -/
def ScoringTerm.Yields (term : ScoringTerm) (candidate : Candidate) (resolver : Resolver)
    (contributionMilli : Int) : Prop :=
  ∃ transformedMilli, termValue candidate resolver term = .ok transformedMilli ∧
    toI64 (contributionOf transformedMilli term.weightMilli) = some contributionMilli

/-- The contributions of terms that all read known values, in order. -/
abbrev KnownContributions (candidate : Candidate) (resolver : Resolver)
    (terms : List ScoringTerm) (contributions : List Int) : Prop :=
  List.Forall₂ (fun term x => ScoringTerm.Yields term candidate resolver x) terms contributions

/-- The candidate's score when every gate holds and every term reads a known value. -/
structure KnownScore (policy : SelectionPolicy) (candidate : Candidate) (resolver : Resolver)
    (scoreMilli : Int) : Prop where
  gates : ∀ gate ∈ policy.gates, gate.predicate.meaning candidate resolver = .holds
  terms : ∃ xs, KnownContributions candidate resolver policy.scoring xs ∧ scoreMilli = xs.sum

section Collected

variable {candidate : Candidate} {resolver : Resolver}

variable {terms : List ScoringTerm}

lemma yields_unique {xs ys} (first : KnownContributions candidate resolver terms xs)
    (second : KnownContributions candidate resolver terms ys) : xs = ys := by
  refine List.right_unique_forall₂' ?_ first second
  rintro term x y ⟨value, read, fits⟩ ⟨other, also, fits'⟩
  obtain rfl := ok.inj (read.symm.trans also)
  exact some.inj (fits.symm.trans fits')

lemma known_of_yields {xs} (each : KnownContributions candidate resolver terms xs) :
    ∀ term ∈ terms, ∃ transformedMilli,
      termValue candidate resolver term = .ok transformedMilli := by
  induction each with
  | nil => simp
  | cons yields _ ih =>
    obtain ⟨value, read, -⟩ := yields
    exact forall_mem_cons.mpr ⟨⟨value, read⟩, ih⟩

/-- A rejection names a gate that is decided against the candidate; otherwise no gate is, and
nothing is listed when all of them hold. -/
theorem collectGates_spec (gates : List HardGate) {reads : Reads}
    (recording : reads.recording = true) (unknown : List UnknownInput) :
    match collectGates candidate resolver gates reads unknown with
    | .rejected gateId _ => ∃ gate ∈ gates, gate.gateId = gateId ∧
        gate.predicate.meaning candidate resolver = .fails
    | .passed _ later => later = [] ↔
        unknown = [] ∧ ∀ gate ∈ gates, gate.predicate.meaning candidate resolver = .holds := by
  induction gates generalizing reads unknown with
  | nil => simp [collectGates]
  | cons gate rest ih =>
    have noted := @truth_notes candidate resolver gate.predicate reads recording
    have value := @truth_fst candidate resolver gate.predicate reads
    rw [collectGates]
    generalize truth candidate resolver gate.predicate reads = result at noted value
    obtain ⟨first, after⟩ := result
    simp only at value
    cases first with
    | fails => exact ⟨gate, mem_cons_self, rfl, value.symm⟩
    | holds =>
      have later := @ih (after.truncateUnknown reads.unknown.length) noted.recording unknown
      simp only
      generalize collectGates candidate resolver rest (after.truncateUnknown reads.unknown.length)
        unknown = collected at later
      cases collected with
      | rejected gateId known =>
        obtain ⟨found, listed, named, fails⟩ := later
        exact ⟨found, mem_cons_of_mem _ listed, named, fails⟩
      | passed last listed =>
        rw [forall_mem_cons]
        simpa [← value] using later
    | unknown reason =>
      obtain ⟨added, some, shape⟩ := noted.undecided ⟨reason, rfl⟩
      have entries : after.unknown.drop reads.unknown.length = added := by
        rw [shape, drop_left]
      have later := @ih (after.truncateUnknown reads.unknown.length) noted.recording
        (noteAll gate.gateId unknown (after.unknown.drop reads.unknown.length))
      simp only
      generalize collectGates candidate resolver rest (after.truncateUnknown reads.unknown.length)
        (noteAll gate.gateId unknown (after.unknown.drop reads.unknown.length)) = collected
        at later
      cases collected with
      | rejected gateId known =>
        obtain ⟨found, listed, named, fails⟩ := later
        exact ⟨found, mem_cons_of_mem _ listed, named, fails⟩
      | passed last listed =>
        rw [forall_mem_cons]
        simpa [← value, noteAll_eq_nil_iff, entries, some] using later

theorem collectTerms_none (terms : List ScoringTerm) (reads : Reads) (unknown : List UnknownInput) :
    ∃ after later, collectTerms candidate resolver terms reads unknown none =
        .ok (after, later, none) ∧ (unknown ≠ [] → later ≠ []) := by
  induction terms generalizing reads unknown with
  | nil => exact ⟨reads, unknown, rfl, fun some => some⟩
  | cons term rest ih =>
    rw [collectTerms]
    cases (resolver.read term.value candidate).bind term.transform.apply with
    | ok transformedMilli => exact ih (reads.recordKnown resolver term.value) unknown
    | error reason =>
      obtain ⟨after, later, answer, kept⟩ :=
        ih reads (noteUnknown unknown term.termId term.value reason)
      exact ⟨after, later, answer, fun _ => kept (noteUnknown_ne_nil _ _ _ _)⟩

/-- The terms list nothing exactly when each reads a known value, and then sum them. -/
theorem collectTerms_spec {later} {start : Int} {last}
    (answer : collectTerms candidate resolver terms reads [] (some start) =
      .ok (after, later, last)) :
    (later = [] ↔ ∀ term ∈ terms, ∃ transformedMilli,
      termValue candidate resolver term = .ok transformedMilli) ∧
    (later = [] → ∃ xs, KnownContributions candidate resolver terms xs ∧
      last = some (start + xs.sum)) := by
  induction terms generalizing reads start with
  | nil =>
    simp only [collectTerms, pure_ok_iff, mk.injEq] at answer
    obtain ⟨-, rfl, rfl⟩ := answer
    exact ⟨by simp, fun _ => ⟨[], .nil, by simp⟩⟩
  | cons term rest ih =>
    have value := @termValue_eq candidate resolver term
    rw [collectTerms, ← value] at answer
    cases read : termValue candidate resolver term with
    | error reason =>
      rw [read] at answer
      obtain ⟨other, listed, answered, kept⟩ := @collectTerms_none candidate resolver rest reads
        (noteUnknown [] term.termId term.value reason)
      simp only at answer
      rw [answered, ok.injEq, mk.injEq, mk.injEq] at answer
      obtain ⟨-, rfl, -⟩ := answer
      have some := kept (noteUnknown_ne_nil _ _ _ _)
      refine ⟨⟨fun empty => (some empty).elim, fun each => ?_⟩, fun empty => (some empty).elim⟩
      obtain ⟨transformedMilli, known⟩ := each term mem_cons_self
      rw [read] at known
      cases known
    | ok transformedMilli =>
      rw [read] at answer
      simp only [bind_ok_iff, okOr_ok_iff] at answer
      obtain ⟨x, fits, answer⟩ := answer
      obtain ⟨empty, sums⟩ := ih answer
      refine ⟨empty.trans ?_, fun none => ?_⟩
      · rw [forall_mem_cons]
        exact ⟨fun each => ⟨⟨_, read⟩, each⟩, fun each => each.2⟩
      · obtain ⟨xs, each, rfl⟩ := sums none
        exact ⟨x :: xs, .cons ⟨_, read, fits⟩ each, by rw [sum_cons, add_assoc]⟩

variable {policy : SelectionPolicy} {result : CollectedCandidate}

/-- How the collect option answers: at a rejecting gate, or after the terms. -/
theorem collectCandidate_ok_iff :
    collectCandidate policy resolver candidate = .ok result ↔
      (∃ gateId known, collectGates candidate resolver policy.gates .noting [] =
          .rejected gateId known ∧
        result = ⟨candidate.candidateId, .gateRejected gateId, known⟩) ∨
      ∃ reads unknown after later last verdict,
        collectGates candidate resolver policy.gates .noting [] = .passed reads unknown ∧
        collectTerms candidate resolver policy.scoring reads unknown
          (if unknown = [] then some 0 else none) = .ok (after, later, last) ∧
        collectVerdict candidate.candidateId later last = .ok verdict ∧
        result = ⟨candidate.candidateId, verdict, after.known⟩ := by
  rw [collectCandidate]
  cases collectGates candidate resolver policy.gates .noting [] with
  | rejected gateId known => simp [pure, Except.pure, eq_comm]
  | passed reads unknown =>
    simp only [bind_ok_iff, pure_ok_iff, reduceCtorEq, false_and,
      exists_false, false_or, GatesCollected.passed.injEq]
    constructor
    · rintro ⟨⟨after, later, last⟩, terms, verdict, decided, rfl⟩
      exact ⟨reads, unknown, after, later, last, verdict, ⟨rfl, rfl⟩, terms, decided, rfl⟩
    · rintro ⟨_, _, after, later, last, verdict, ⟨rfl, rfl⟩, terms, decided, rfl⟩
      exact ⟨⟨after, later, last⟩, terms, verdict, decided, rfl⟩

/-- A verdict that scores the candidate knows every input, and every known score is reported. -/
theorem collectCandidate_scored (answer : collectCandidate policy resolver candidate = .ok result)
    (scoreMilli : Int) :
    result.verdict = .scored scoreMilli ↔ KnownScore policy candidate resolver scoreMilli := by
  have gates := @collectGates_spec candidate resolver policy.gates .noting rfl []
  rcases collectCandidate_ok_iff.mp answer with ⟨gateId, known, rejected, rfl⟩ |
    ⟨reads, unknown, after, later, last, verdict, passed, terms, decided, rfl⟩
  · rw [rejected] at gates
    obtain ⟨gate, inside, -, fails⟩ := gates
    refine iff_of_false CollectedVerdict.noConfusion fun score => ?_
    have holds := score.gates gate inside
    rw [fails] at holds
    cases holds
  rw [passed] at gates
  by_cases open' : unknown = []
  · subst open'
    obtain ⟨known, sums⟩ := collectTerms_spec terms
    have held := (gates.mp rfl).2
    by_cases none : later = []
    · obtain ⟨xs, each, rfl⟩ := sums none
      rw [collectVerdict, if_pos none] at decided
      simp only [bind_ok_iff, okOr_ok_iff, getD_some, zero_add, pure_ok_iff] at decided
      obtain ⟨score, fits, rfl⟩ := decided
      obtain ⟨rfl, -⟩ := toI64_eq_some_iff.mp fits
      constructor
      · intro scored
        cases scored
        exact ⟨held, xs, each, rfl⟩
      · rintro ⟨-, ys, others, rfl⟩
        rw [yields_unique each others]
    · rw [collectVerdict, if_neg none] at decided
      obtain rfl := ok.inj decided
      refine iff_of_false CollectedVerdict.noConfusion fun score => ?_
      obtain ⟨xs, each, -⟩ := score.terms
      exact none (known.mpr (known_of_yields each))
  · rw [if_neg open'] at terms
    obtain ⟨other, listed, answered, kept⟩ :=
      @collectTerms_none candidate resolver policy.scoring reads unknown
    rw [answered, ok.injEq, mk.injEq, mk.injEq] at terms
    obtain ⟨-, rfl, -⟩ := terms
    rw [collectVerdict, if_neg (kept open')] at decided
    obtain rfl := ok.inj decided
    exact iff_of_false CollectedVerdict.noConfusion fun score =>
      open' (gates.mpr ⟨rfl, score.gates⟩)

theorem collectVerdict_ne_rejected {candidateId gateId : String} {unknown total} :
    collectVerdict candidateId unknown total ≠ .ok (.gateRejected gateId) := by
  intro decided
  rw [collectVerdict] at decided
  split at decided
  · simp [bind_ok_iff, pure, Except.pure] at decided
  · cases decided

/-- A rejection names a gate that is decided against the candidate. -/
theorem collectCandidate_rejected (answer : collectCandidate policy resolver candidate = .ok result)
    {gateId : String} (rejected : result.verdict = .gateRejected gateId) :
    ∃ gate ∈ policy.gates, gate.gateId = gateId ∧
      gate.predicate.meaning candidate resolver = .fails := by
  have gates := @collectGates_spec candidate resolver policy.gates .noting rfl []
  rcases collectCandidate_ok_iff.mp answer with ⟨other, known, stopped, rfl⟩ |
    ⟨reads, unknown, after, later, last, verdict, passed, terms, decided, rfl⟩
  · rw [stopped] at gates
    cases rejected
    exact gates
  · obtain rfl : verdict = .gateRejected gateId := rejected
    exact (collectVerdict_ne_rejected decided).elim

lemma collectCandidate_candidateId
    (answer : collectCandidate policy resolver candidate = .ok result) :
    result.candidateId = candidate.candidateId := by
  rcases collectCandidate_ok_iff.mp answer with ⟨_, _, -, rfl⟩ | ⟨_, _, _, _, _, _, -, -, -, rfl⟩
  · rfl
  · rfl

/-- Terms that an assessment adds up are added up alike while every input is known. -/
theorem collectTerms_answers {start total : Int} {verdict step}
    (assessed : assessTerms candidate resolver terms start verdict = .ok (step, total))
    (reads : Reads) (unknown : List UnknownInput) :
    ∃ after later last, collectTerms candidate resolver terms reads unknown (some start) =
        .ok (after, later, last) ∧
      (later = [] → (∃ kept, step = .kept kept) ∧ last = some total) := by
  induction terms generalizing start verdict reads with
  | nil =>
    simp only [assessTerms, pure_ok_iff, mk.injEq] at assessed
    obtain ⟨rfl, rfl⟩ := assessed
    exact ⟨reads, unknown, some start, rfl, fun _ => ⟨⟨verdict, rfl⟩, rfl⟩⟩
  | cons term rest ih =>
    simp only [assessTerms, bind_ok_iff] at assessed
    obtain ⟨⟨first, x⟩, scored, assessed⟩ := assessed
    rw [collectTerms, ← termValue_eq]
    rw [assessTerm] at scored
    cases read : termValue candidate resolver term with
    | error reason =>
      obtain ⟨after, later, answered, kept⟩ := @collectTerms_none candidate resolver rest reads
        (noteUnknown unknown term.termId term.value reason)
      exact ⟨after, later, none, answered, fun empty =>
        (kept (noteUnknown_ne_nil _ _ _ _) empty).elim⟩
    | ok transformedMilli =>
      simp only [read, termOutcome, applyTerm, bind_ok_iff, okOr_ok_iff, pure_ok_iff,
        mk.injEq] at scored
      obtain ⟨narrowed, fits, rfl, rfl⟩ := scored
      obtain ⟨after, later, last, answered, sums⟩ :=
        ih assessed (reads.recordKnown resolver term.value)
      refine ⟨after, later, last, ?_, sums⟩
      simp only [bind_ok_iff, okOr_ok_iff]
      exact ⟨narrowed, fits, answered⟩

/-- What an assessment does not refuse, the collect option does not refuse either. -/
theorem collectCandidate_answers {assessment}
    (assessed : assess policy candidate resolver = .ok assessment) :
    ∃ result, collectCandidate policy resolver candidate = .ok result := by
  have gates := @collectGates_spec candidate resolver policy.gates .noting rfl []
  simp only [collectCandidate_ok_iff]
  cases stopped : collectGates candidate resolver policy.gates .noting [] with
  | rejected gateId known => exact ⟨_, Or.inl ⟨gateId, known, rfl, rfl⟩⟩
  | passed reads unknown =>
    rw [stopped] at gates
    suffices answers : ∃ after later last verdict,
        collectTerms candidate resolver policy.scoring reads unknown
          (if unknown = [] then some 0 else none) = .ok (after, later, last) ∧
        collectVerdict candidate.candidateId later last = .ok verdict by
      obtain ⟨after, later, last, verdict, terms, decided⟩ := answers
      exact ⟨_, Or.inr ⟨reads, unknown, after, later, last, verdict, rfl, terms, decided, rfl⟩⟩
    by_cases open' : unknown = []
    · -- Every gate holds, so the assessment went on to the terms.
      subst open'
      have held := (gates.mp rfl).2
      have leaves := @assessGates_leaves candidate resolver policy.gates
        (freshVerdict candidate.candidateId)
      have passes : ∀ gate ∈ policy.gates, gate.Passes candidate resolver :=
        fun gate inside => Or.inl (held gate inside)
      rw [assess] at assessed
      generalize assessGates candidate resolver policy.gates
        (freshVerdict candidate.candidateId) = step at leaves assessed
      cases step with
      | settled | aborted => exact (leaves.1 passes).elim
      | kept verdict =>
        simp only [bind_ok_iff] at assessed
        obtain ⟨⟨ended, total⟩, scored, assessed⟩ := assessed
        obtain ⟨after, later, last, answered, sums⟩ := collectTerms_answers scored reads []
        by_cases none : later = []
        · obtain ⟨⟨kept, rfl⟩, rfl⟩ := sums none
          simp only [scoreCandidate, bind_ok_iff, okOr_ok_iff] at assessed
          obtain ⟨scoreMilli, fits, -⟩ := assessed
          refine ⟨after, later, some total, .scored scoreMilli, answered, ?_⟩
          simp only [collectVerdict, if_pos none, bind_ok_iff, okOr_ok_iff, getD_some]
          exact ⟨scoreMilli, fits, rfl⟩
        · refine ⟨after, later, last, .unknown later, answered, ?_⟩
          rw [collectVerdict, if_neg none]
          rfl
    · obtain ⟨after, later, answered, kept⟩ :=
        @collectTerms_none candidate resolver policy.scoring reads unknown
      rw [if_neg open']
      refine ⟨after, later, none, .unknown later, answered, ?_⟩
      rw [collectVerdict, if_neg (kept open')]
      rfl

end Collected

end Selection
