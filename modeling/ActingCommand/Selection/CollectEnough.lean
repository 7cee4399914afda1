import ActingCommand.Selection.CollectAgrees

/-!
# The listed inputs are enough

Members of a list that did not matter to its verdict leave no unknown input behind. What a
verdict lists for an undecided gate is still enough: wherever the known inputs read the same and
the listed ones are known, the gate is decided.
-/

namespace Selection

open Machine ThreeValued List Except Predicate

variable {reads : Reads}

section Settles

variable {α : Type} {candidate other : Candidate} {resolver world : Resolver}

/-- The inputs noted as known read the same for the other candidate in the other world. -/
def AgreesOn (candidate other : Candidate) (resolver world : Resolver)
    (known : List KnownInput) : Prop :=
  ∀ input ∈ known, world.read input.input other = resolver.read input.input candidate

/-- The inputs are known for the candidate. -/
def Fetched (candidate : Candidate) (resolver : Resolver)
    (inputs : List (ValueRef × UnknownReason)) : Prop :=
  ∀ entry ∈ inputs, ∃ value, resolver.read entry.1 candidate = .ok value

lemma leafTruth_eq (read : Except UnknownReason ScalarValue) (decides : ScalarValue → Option Bool) :
    leafTruth read decides =
      truthOf (read.bind fun value => Call.okOr (decides value) UnknownReason.typeMismatch) := by
  cases read with
  | error reason => rfl
  | ok value =>
    simp only [leafTruth, Except.bind]
    cases decides value <;> rfl

lemma compareTruth_eq (op : IntegerCompareOp) (mul : Option Nat) (add : Option Int)
    (left right : Except UnknownReason ScalarValue) :
    compareTruth op mul add left right =
      compareSides op mul add (left.bind integerOf) (right.bind integerOf) := by
  unfold compareTruth
  cases left.bind integerOf with
  | error reason => rfl
  | ok value => cases right.bind integerOf <;> rfl

/-- What one read gives in the other world: a value already decoded is decoded alike, and one
that was not is once it is known. -/
theorem noteRead_settles {decode : ScalarValue → Except UnknownReason α} {reference}
    (recording : reads.recording = true)
    (decodes : ∀ value, world.read reference other = .ok value → isUnknown (decode value) = false)
    (agrees : AgreesOn candidate other resolver world
      (noteRead decode reference candidate resolver reads).2.known) :
    (isUnknown (noteRead decode reference candidate resolver reads).1 = false →
      (world.read reference other).bind decode =
        (noteRead decode reference candidate resolver reads).1) ∧
    (Fetched other world (noteRead decode reference candidate resolver reads).2.unknown →
      isUnknown ((world.read reference other).bind decode) = false) := by
  obtain ⟨-, known, unknown⟩ :=
    @noteRead_notes _ candidate resolver decode reference reads recording
  have same : isUnknown (noteRead decode reference candidate resolver reads).1 = false →
      (world.read reference other).bind decode =
        (noteRead decode reference candidate resolver reads).1 := by
    intro decoded
    obtain ⟨input, listed, rfl⟩ := known decoded
    rw [noteRead_fst, agrees input listed]
  refine ⟨same, fun fetched => ?_⟩
  cases decoded : isUnknown (noteRead decode reference candidate resolver reads).1 with
  | false => rw [same decoded, decoded]
  | true =>
    obtain ⟨reason, shape⟩ := unknown decoded
    obtain ⟨value, read⟩ := fetched (reference, reason) (by rw [shape]; simp)
    rw [read]
    exact decodes value read

/-- How a predicate evaluated here stands in the other world: a decided value is kept, and it is
decided there once the inputs noted as unknown are known. -/
structure Stands (candidate other : Candidate) (resolver world : Resolver) (predicate : Predicate)
    (reads : Reads) : Prop where
  kept : ¬ Undecided (truth candidate resolver predicate reads).1 →
    predicate.meaning other world = (truth candidate resolver predicate reads).1
  decided : Fetched other world (truth candidate resolver predicate reads).2.unknown →
    ¬ Undecided (predicate.meaning other world)

lemma comparison_stands {predicate : Predicate} {value wanted decides}
    (compares : predicate.Compares value wanted decides)
    (fits : ∀ held, world.read value other = .ok held → wanted.fits held = true)
    (recording : reads.recording = true)
    (agrees : AgreesOn candidate other resolver world
      (truth candidate resolver predicate reads).2.known) :
    Stands candidate other resolver world predicate reads := by
  have shape := @Compares.truth_eq candidate resolver _ _ _ _ compares reads
  rw [leaf_eq] at shape
  rw [shape] at agrees
  obtain ⟨kept, decided⟩ := noteRead_settles recording (fun held read => by
    -- A comparison decides every value of the kind it expects.
    have fits := fits held read
    cases compares <;> cases held <;> first | rfl | cases fits) agrees
  constructor
  · intro closed
    rw [shape] at closed ⊢
    rw [undecided_truthOf, Bool.not_eq_true] at closed
    rw [compares.meaning_eq, leafTruth_eq, kept closed]
  · intro fetched
    rw [shape] at fetched
    rw [compares.meaning_eq, leafTruth_eq, undecided_truthOf, decided fetched]
    exact Bool.false_ne_true

lemma integerOf_known {value} (fits : ExpectedKind.integer.fits value = true) :
    isUnknown (integerOf value) = false := by
  cases value <;> first | rfl | cases fits

lemma integerCompare_stands {left right : ValueRef} {op mul add}
    (fitsLeft : ∀ held, world.read left other = .ok held → ExpectedKind.integer.fits held = true)
    (fitsRight : ∀ held, world.read right other = .ok held → ExpectedKind.integer.fits held = true)
    (recording : reads.recording = true)
    (agrees : AgreesOn candidate other resolver world
      (truth candidate resolver (.integerCompare left op right mul add) reads).2.known) :
    Stands candidate other resolver world (.integerCompare left op right mul add) reads := by
  have shape := @truth_integerCompare candidate resolver left right op mul add reads
  have first := (@noteRead_notes _ candidate resolver integerOf left reads recording).1
  have second := (@noteRead_notes _ candidate resolver integerOf right _ first.recording).1
  rw [shape] at agrees
  obtain ⟨keptLeft, decidedLeft⟩ := noteRead_settles recording
    (fun held read => integerOf_known (fitsLeft held read))
    (fun input listed => agrees input (second.known listed))
  obtain ⟨keptRight, decidedRight⟩ := noteRead_settles first.recording
    (fun held read => integerOf_known (fitsRight held read)) agrees
  constructor
  · intro closed
    rw [shape] at closed ⊢
    rw [undecided_compareSides, not_or, Bool.not_eq_true, Bool.not_eq_true] at closed
    rw [meaning, compareTruth_eq, keptLeft closed.1, keptRight closed.2]
  · intro fetched
    rw [shape] at fetched
    rw [meaning, compareTruth_eq, undecided_compareSides, decidedRight fetched]
    -- The left side's unknown inputs are among those of both sides.
    have grows : (noteRead integerOf left candidate resolver reads).2.unknown ⊆
        (noteRead integerOf right candidate resolver
          (noteRead integerOf left candidate resolver reads).2).2.unknown := second.grows
    rw [decidedLeft fun entry listed => fetched entry (grows listed)]
    simp

/-- How the members of a conjunction stand in the other world. -/
structure EachStands (other : Candidate) (world : Resolver) (of : List Predicate) (value : Truth)
    (after : Reads) : Prop where
  holds : value = .holds → ∀ inner ∈ of, inner.meaning other world = .holds
  fails : value = .fails → ∃ inner ∈ of, inner.meaning other world = .fails
  decided : Undecided value → Fetched other world after.unknown →
    ∀ inner ∈ of, ¬ Undecided (inner.meaning other world)

lemma truthAll_stands {of}
    (each : ∀ inner ∈ of, ∀ {reads : Reads}, reads.recording = true →
      AgreesOn candidate other resolver world (truth candidate resolver inner reads).2.known →
      Stands candidate other resolver world inner reads)
    {start : Nat} {base added} {undecided}
    (midway : Midway start base added undecided reads)
    (agrees : AgreesOn candidate other resolver world
      (truthAll candidate resolver start undecided of reads).2.known) :
    EachStands other world of (truthAll candidate resolver start undecided of reads).1
      (truthAll candidate resolver start undecided of reads).2 := by
  induction of generalizing added undecided reads with
  | nil => exact ⟨by simp, by cases undecided <;> simp [truthAll], by simp⟩
  | cons inner rest ih =>
    rw [forall_mem_cons] at each
    have noted := @truth_notes candidate resolver inner reads midway.recording
    have head := @each.1 reads midway.recording
    rw [truthAll] at agrees ⊢
    cases result : truth candidate resolver inner reads with
    | mk value after =>
    rw [result] at noted agrees
    have stands (own : AgreesOn candidate other resolver world after.known) :
        (¬ Undecided value → inner.meaning other world = value) ∧
          (Fetched other world after.unknown → ¬ Undecided (inner.meaning other world)) := by
      have here := head (by rw [result]; exact own)
      exact ⟨by simpa only [result] using here.kept, by simpa only [result] using here.decided⟩
    cases value with
    | fails =>
      obtain ⟨kept, -⟩ := stands agrees
      have failing : inner.meaning other world = .fails := kept (by simp [Undecided])
      exact ⟨by simp, fun _ => ⟨inner, mem_cons_self, failing⟩, by simp [Undecided]⟩
    | holds =>
      have closed : Noted reads after False := noted.congr (by simp [Undecided])
      have done := @truthAll_notes candidate resolver rest
        (fun inner _ => truth_notes inner) _ _ _ _
        _ (midway.kept closed)
      have later := ih each.2 (midway.kept closed) agrees
      obtain ⟨kept, -⟩ := stands fun input listed => agrees input (done.known listed)
      have holding : inner.meaning other world = .holds := kept (by simp [Undecided])
      refine ⟨fun value => ?_, fun value => ?_, fun open' fetched => ?_⟩
      · exact forall_mem_cons.mpr ⟨holding, later.holds value⟩
      · obtain ⟨found, listed, failing⟩ := later.fails value
        exact ⟨found, mem_cons_of_mem _ listed, failing⟩
      · exact forall_mem_cons.mpr ⟨by simp [holding, Undecided], later.decided open' fetched⟩
    | unknown reason =>
      have opened : Noted reads after True := noted.congr (by simp [Undecided])
      obtain ⟨more, -, shape, next⟩ := midway.opened opened reason
      have done := @truthAll_notes candidate resolver rest
        (fun inner _ => truth_notes inner) _ _ _ _
        _ next
      have later := ih each.2 next agrees
      obtain ⟨-, decided⟩ := stands fun input listed => agrees input (done.known listed)
      refine ⟨fun value => ?_, fun value => ?_, fun open' fetched => ?_⟩
      · -- An undecided member keeps the conjunction from holding.
        simp only [truthAll_fst fun inner _ => truth_fst inner] at value
        cases undecided <;> cases (Truth.conjFrom_holds value).1
      · obtain ⟨found, listed, failing⟩ := later.fails value
        exact ⟨found, mem_cons_of_mem _ listed, failing⟩
      refine forall_mem_cons.mpr ⟨decided fun entry listed => fetched entry ?_,
        later.decided open' fetched⟩
      obtain ⟨others, -, final⟩ := done.undecided open'
      rw [final, ← append_assoc, ← shape]
      exact mem_append_left _ listed

/-- How every typed predicate stands in another world whose known values have their types. -/
theorem truth_stands {policy}
    (fits : ∀ {reference wanted held}, policy.Expects reference wanted →
      world.read reference other = .ok held → wanted.fits held = true)
    (predicate : Predicate) (typed : predicate.Typed policy) (recording : reads.recording = true)
    (agrees : AgreesOn candidate other resolver world
      (truth candidate resolver predicate reads).2.known) :
    Stands candidate other resolver world predicate reads := by
  induction predicate using Predicate.induct generalizing reads with
  | comparison compares =>
    exact comparison_stands compares (fun _ read => fits (compares.typed typed) read) recording
      agrees
  | integerCompare left op right mul add =>
    rw [Predicate.Typed] at typed
    exact integerCompare_stands (fun _ read => fits typed.1 read) (fun _ read => fits typed.2 read)
      recording agrees
  | all of each =>
    rw [Predicate.Typed, Predicate.eachTyped_iff] at typed
    rw [truth] at agrees
    have stands := truthAll_stands (fun inner listed {_} => each inner listed (typed inner listed))
      (.fresh recording) agrees
    have kept : ¬ Undecided (truthAll candidate resolver reads.unknown.length none of reads).1 →
        (Predicate.all of).meaning other world =
          (truthAll candidate resolver reads.unknown.length none of reads).1 := by
      intro closed
      rw [Predicate.meaning, Predicate.meanings_eq_map]
      cases value : (truthAll candidate resolver reads.unknown.length none of reads).1 with
      | holds =>
        rw [Truth.conj_eq_holds_iff, List.forall_mem_map]
        exact stands.holds value
      | fails =>
        rw [Truth.conj_eq_fails_iff]
        obtain ⟨inner, listed, failing⟩ := stands.fails value
        exact List.mem_map.mpr ⟨inner, listed, failing⟩
      | unknown reason => exact (closed ⟨reason, value⟩).elim
    constructor
    · simpa only [truth] using kept
    · intro fetched
      rw [truth] at fetched
      by_cases here : Undecided (truthAll candidate resolver reads.unknown.length none of reads).1
      · rw [Predicate.meaning, Predicate.meanings_eq_map]
        rintro ⟨reason, unknown⟩
        have source := (Truth.conjFrom_unknown unknown).2.resolve_left (by simp)
        obtain ⟨inner, listed, own⟩ := List.mem_map.mp source
        exact stands.decided here fetched inner listed ⟨reason, own⟩
      · rw [kept here]
        exact here
  | not of inner =>
    rw [Predicate.Typed] at typed
    rw [truth_not] at agrees
    have stands := inner typed recording agrees
    constructor
    · intro closed
      rw [truth_not, undecided_negate] at closed
      rw [truth_not, Predicate.meaning, stands.kept closed]
    · intro fetched
      rw [truth_not] at fetched
      rw [Predicate.meaning, undecided_negate]
      exact stands.decided fetched
  | any of negated =>
    rw [truth_any] at agrees
    have stands := negated (Predicate.typed_any.mp typed) recording agrees
    constructor
    · intro closed
      rw [truth_any] at closed ⊢
      rw [Predicate.meaning_any, stands.kept closed]
    · intro fetched
      rw [truth_any] at fetched
      rw [Predicate.meaning_any]
      exact stands.decided fetched

end Settles

/-! ## What a collected verdict lists -/

def CollectedVerdict.inputs : CollectedVerdict → List UnknownInput
  | unknown inputs => inputs
  | _ => []

lemma subset_noteUnknown (unknown : List UnknownInput) (ruleId : String) (input : ValueRef)
    (reason : UnknownReason) : unknown ⊆ noteUnknown unknown ruleId input reason := by
  unfold noteUnknown
  split
  · exact List.Subset.refl _
  · exact subset_append_left _ _

/-- Nothing noted is forgotten, and every input is noted under the rule that met it. -/
theorem noteAll_notes (ruleId : String) (unknown : List UnknownInput)
    (inputs : List (ValueRef × UnknownReason)) :
    unknown ⊆ noteAll ruleId unknown inputs ∧
      ∀ entry ∈ inputs, ⟨ruleId, entry.1, entry.2⟩ ∈ noteAll ruleId unknown inputs := by
  induction inputs generalizing unknown with
  | nil => exact ⟨List.Subset.refl _, by simp⟩
  | cons first rest ih =>
    obtain ⟨kept, noted⟩ := ih (noteUnknown unknown ruleId first.1 first.2)
    refine ⟨List.Subset.trans (subset_noteUnknown ..) kept, forall_mem_cons.mpr ⟨?_, noted⟩⟩
    refine kept ?_
    unfold noteUnknown
    split
    · assumption
    · simp

section Lists

variable {candidate : Candidate} {resolver : Resolver}

/-- A gate's own pass, within the pass over all gates: its known inputs and, when it is undecided,
its unknown ones are in what the gates leave. -/
structure GateListed (candidate : Candidate) (resolver : Resolver) (gate : HardGate) (after : Reads)
    (later : List UnknownInput) (reads : Reads) : Prop where
  recording : reads.recording = true
  known : (truth candidate resolver gate.predicate reads).2.known ⊆ after.known
  unknown : Undecided (truth candidate resolver gate.predicate reads).1 →
    ∀ entry ∈ (truth candidate resolver gate.predicate reads).2.unknown,
      ⟨gate.gateId, entry.1, entry.2⟩ ∈ later

lemma collectGates_lists {gates} {after : Reads} {unknown later}
    (recording : reads.recording = true) (fresh : reads.unknown = [])
    (passed : collectGates candidate resolver gates reads unknown = .passed after later) :
    after.recording = true ∧ unknown ⊆ later ∧ reads.known ⊆ after.known ∧
      ∀ gate ∈ gates, ∃ own, GateListed candidate resolver gate after later own := by
  induction gates generalizing reads unknown with
  | nil =>
    cases passed
    exact ⟨recording, List.Subset.refl _, List.Subset.refl _, by simp⟩
  | cons gate rest ih =>
    have noted := @truth_notes candidate resolver gate.predicate reads recording
    rw [collectGates] at passed
    cases result : truth candidate resolver gate.predicate reads with
    | mk value next =>
    rw [result] at noted passed
    have still : (next.truncateUnknown reads.unknown.length).recording = true := noted.recording
    have empty : (next.truncateUnknown reads.unknown.length).unknown = [] := by
      simp [Reads.truncateUnknown, fresh]
    cases value with
    | fails => cases passed
    | holds =>
      obtain ⟨records, grows, known, each⟩ := ih still empty passed
      refine ⟨records, grows, List.Subset.trans noted.known known,
        forall_mem_cons.mpr ⟨?_, each⟩⟩
      exact ⟨reads, recording, by rw [result]; exact known, by simp [result, Undecided]⟩
    | unknown reason =>
      obtain ⟨records, grows, known, each⟩ := ih still empty passed
      rw [fresh, length_nil, drop_zero] at grows
      obtain ⟨kept, listed⟩ := noteAll_notes gate.gateId unknown next.unknown
      refine ⟨records, List.Subset.trans kept grows, List.Subset.trans noted.known known,
        forall_mem_cons.mpr ⟨?_, each⟩⟩
      refine ⟨reads, recording, by rw [result]; exact known, fun _ entry inside => ?_⟩
      rw [result] at inside
      exact grows (listed entry inside)

lemma collectTerms_lists {terms} {after : Reads} {unknown later total last}
    (recording : reads.recording = true)
    (answer : collectTerms candidate resolver terms reads unknown total =
      .ok (after, later, last)) :
    unknown ⊆ later ∧ reads.known ⊆ after.known := by
  induction terms generalizing reads unknown total with
  | nil =>
    cases answer
    exact ⟨List.Subset.refl _, List.Subset.refl _⟩
  | cons term rest ih =>
    rw [collectTerms] at answer
    obtain ⟨kept, known, -, -⟩ := @recordKnown_spec resolver reads term.value recording
    cases read : (resolver.read term.value candidate).bind term.transform.apply with
    | error reason =>
      rw [read] at answer
      obtain ⟨grows, same⟩ := ih recording answer
      exact ⟨List.Subset.trans (subset_noteUnknown ..) grows, same⟩
    | ok transformedMilli =>
      rw [read] at answer
      cases total with
      | none =>
        obtain ⟨grows, same⟩ := ih kept answer
        exact ⟨grows, List.Subset.trans known same⟩
      | some sum =>
        simp only [bind_ok_iff] at answer
        obtain ⟨x, -, answer⟩ := answer
        obtain ⟨grows, same⟩ := ih kept answer
        exact ⟨grows, List.Subset.trans known same⟩

/-- What a candidate that no gate rejects lists for its gates. -/
theorem collectCandidate_lists {policy result}
    (answer : collectCandidate policy resolver candidate = .ok result)
    (unrejected : ∀ gateId, result.verdict ≠ .gateRejected gateId) {gate}
    (inside : gate ∈ policy.gates) :
    ∃ reads : Reads, reads.recording = true ∧
      (truth candidate resolver gate.predicate reads).2.known ⊆ result.knownInputs ∧
      (Undecided (truth candidate resolver gate.predicate reads).1 →
        ∀ entry ∈ (truth candidate resolver gate.predicate reads).2.unknown,
          ⟨gate.gateId, entry.1, entry.2⟩ ∈ result.verdict.inputs) := by
  rcases collectCandidate_ok_iff.mp answer with ⟨gateId, known, -, rfl⟩ |
    ⟨reads, unknown, after, later, last, verdict, passed, terms, decided, rfl⟩
  · exact (unrejected gateId rfl).elim
  obtain ⟨recording, -, -, each⟩ := collectGates_lists rfl rfl passed
  obtain ⟨own, listed⟩ := each gate inside
  obtain ⟨grows, known⟩ := collectTerms_lists recording terms
  refine ⟨own, listed.recording, List.Subset.trans listed.known known, fun open' entry met => ?_⟩
  have noted := grows (listed.unknown open' entry met)
  rw [collectVerdict, if_neg (ne_nil_of_mem noted)] at decided
  obtain rfl := ok.inj decided
  exact noted

end Lists

/-! ## Progress -/

/-- The inputs a collected verdict lists for an undecided gate decide it. A candidate that a gate
rejects lists nothing, and needs nothing. -/
theorem collect_lists_enough {policy : SelectionPolicy} {candidates : List Candidate}
    {facts : SelectionFactSnapshot} {nowUnixMs : Nat} {collected : List CollectedCandidate}
    (collects : evaluateCollect policy candidates facts nowUnixMs = .ok collected)
    {candidate : Candidate} {result : CollectedCandidate}
    (paired : (candidate, result) ∈ candidates.zip collected)
    (unrejected : ∀ gateId, result.verdict ≠ .gateRejected gateId)
    {gate : HardGate} (inside : gate ∈ policy.gates)
    (undecided : Undecided (truth candidate (collectResolver policy facts nowUnixMs)
      gate.predicate .noting).1) :
    (∃ input ∈ result.verdict.inputs, input.ruleId = gate.gateId) ∧
    ∀ (other : Candidate) (later : SelectionFactSnapshot) (laterUnixMs : Nat),
      (∀ input ∈ result.knownInputs,
        (collectResolver policy later laterUnixMs).read input.input other =
          (collectResolver policy facts nowUnixMs).read input.input candidate) →
      (∀ input ∈ result.verdict.inputs, input.ruleId = gate.gateId →
        ∃ value, (collectResolver policy later laterUnixMs).read input.input other = .ok value) →
      ¬ Undecided (truth other (collectResolver policy later laterUnixMs)
        gate.predicate .noting).1 := by
  obtain ⟨admitted, each⟩ := evaluateCollect_ok_iff.mp collects
  obtain ⟨scope, checked⟩ := policy.scoped_of_validate admitted.valid
  have typed := checkGates_typed checked admitted.noLists admitted.noTables
    checked.gates gate inside
  have own := (List.forall₂_iff_zip.mp each).2 paired
  obtain ⟨reads, recording, known, listed⟩ := collectCandidate_lists own unrejected inside
  rw [truth_fst, ← truth_fst gate.predicate reads] at undecided
  constructor
  · obtain ⟨added, some, shape⟩ := (truth_notes gate.predicate recording).undecided undecided
    obtain ⟨entry, met⟩ := exists_mem_of_ne_nil added some
    exact ⟨_, listed undecided entry (by rw [shape]; exact mem_append_right _ met), rfl⟩
  · intro other later laterUnixMs agrees fetched
    have fits : ∀ {reference wanted held}, policy.Expects reference wanted →
        (collectResolver policy later laterUnixMs).read reference other = .ok held →
          wanted.fits held = true := by
      rintro reference wanted held ⟨valueType, types, accepts⟩ read
      exact ExpectedKind.fits_of_matches accepts (checked.read_matches types read)
    have stands := truth_stands fits gate.predicate typed recording fun input met =>
      agrees input (known met)
    rw [truth_fst]
    refine stands.decided fun entry met => ?_
    exact fetched _ (listed undecided entry met) rfl

namespace Sample

def readyGate : HardGate := ⟨"gate-ready", .booleanEquals (.field "ready") true, .dropCandidate⟩

/-- The level decides the conjunction before it comes to the member. -/
def nestedGate : HardGate where
  gateId := "gate-open"
  predicate := .any [.all [.integerAtMost (.field "level") 10,
    .stringIn (.field "member") ["member-b"]], .booleanEquals (.field "ready") true]
  onUnknown := .dropCandidate

def nestedPolicy : SelectionPolicy := { levelPolicy with gates := [nestedGate] }

def bareCandidate : Candidate := ⟨"level#02", .ofList [("level", ScalarValue.integer 40)]⟩

/-- The gate lists the flag alone, and a term the member. -/
def bareResult : CollectedCandidate where
  candidateId := "level#02"
  verdict := .unknown [⟨"gate-open", .field "ready", .fieldMissing⟩,
    ⟨"term-member", .field "member", .fieldMissing⟩]
  knownInputs := [⟨.field "level", none⟩]

/-- Once the flag is read, the gate is decided. -/
theorem unread_lists_enough :
    evaluateCollect nestedPolicy [bareCandidate] noFacts 0 = .ok [bareResult] ∧
      (∃ input ∈ bareResult.verdict.inputs, input.ruleId = nestedGate.gateId) ∧
      ¬ Undecided (truth levelCandidate (collectResolver nestedPolicy noFacts 0)
        nestedGate.predicate .noting).1 := by
  obtain ⟨some, enough⟩ := @collect_lists_enough nestedPolicy [bareCandidate] noFacts 0 [bareResult]
    rfl bareCandidate bareResult mem_cons_self (by simp [bareResult]) nestedGate mem_cons_self
    ⟨_, rfl⟩
  refine ⟨rfl, some, enough levelCandidate noFacts 0 ?_ ?_⟩
  · simp only [bareResult, forall_mem_cons]
    exact ⟨rfl, by simp⟩
  · simp only [bareResult, CollectedVerdict.inputs, forall_mem_cons]
    exact ⟨fun _ => ⟨.boolean true, rfl⟩, fun _ => ⟨.string "member-a", rfl⟩, by simp⟩

def twoGatePolicy : SelectionPolicy :=
  { levelPolicy with
    gates := [readyGate, ⟨"gate-level", .integerAtMost (.field "level") 10, .dropCandidate⟩] }

def rejectedResult : CollectedCandidate where
  candidateId := "level#01"
  verdict := .gateRejected "gate-level"
  knownInputs := [⟨.field "level", none⟩]

/-- The second gate rejects the candidate, nothing is listed for the first, and with the same inputs
the first is as undecided as before. -/
theorem rejected_lists_nothing :
    evaluateCollect twoGatePolicy [unreadCandidate] noFacts 0 = .ok [rejectedResult] ∧
      readyGate ∈ twoGatePolicy.gates ∧
      Undecided (truth unreadCandidate (collectResolver twoGatePolicy noFacts 0)
        readyGate.predicate .noting).1 ∧
      ¬ ∀ (other : Candidate) (later : SelectionFactSnapshot) (laterUnixMs : Nat),
        (∀ input ∈ rejectedResult.knownInputs,
          (collectResolver twoGatePolicy later laterUnixMs).read input.input other =
            (collectResolver twoGatePolicy noFacts 0).read input.input unreadCandidate) →
        (∀ input ∈ rejectedResult.verdict.inputs, input.ruleId = readyGate.gateId →
          ∃ value,
            (collectResolver twoGatePolicy later laterUnixMs).read input.input other = .ok value) →
        ¬ Undecided (truth other (collectResolver twoGatePolicy later laterUnixMs)
          readyGate.predicate .noting).1 := by
  refine ⟨rfl, mem_cons_self, ⟨_, rfl⟩, fun decided => ?_⟩
  exact decided unreadCandidate noFacts 0 (fun _ _ => rfl)
    (by simp [rejectedResult, CollectedVerdict.inputs]) ⟨_, rfl⟩

end Sample

end Selection
