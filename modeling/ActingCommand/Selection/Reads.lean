import ActingCommand.Selection.Evaluator

/-!
# What an evaluation depends on

A pass over a candidate looks at the candidate and at the world behind the resolver only
through the reads of its references. Two passes whose reads come to the same values and
the same notes give the same truth values and, for one identifier, the same verdict.
-/

namespace Selection

open ThreeValued List Predicate

/-! ## One induction over predicates -/

/-- The predicate is one comparison: what it reads, the kind it expects and how it decides. -/
inductive Predicate.Compares :
    Predicate → ValueRef → ExpectedKind → (ScalarValue → Option Bool) → Prop
  | integerAtLeast (value : ValueRef) (threshold : Int) :
    Compares (.integerAtLeast value threshold) value .integer
      (integerTest fun value => value ≥ threshold)
  | integerAtMost (value : ValueRef) (threshold : Int) :
    Compares (.integerAtMost value threshold) value .integer
      (integerTest fun value => value ≤ threshold)
  | integerEquals (value : ValueRef) (expected : Int) :
    Compares (.integerEquals value expected) value .integer
      (integerTest fun value => value = expected)
  | booleanEquals (value : ValueRef) (expected : Bool) :
    Compares (.booleanEquals value expected) value .boolean
      (booleanTest fun value => value = expected)
  | stringIn (value : ValueRef) (allowed : List String) :
    Compares (.stringIn value allowed) value .string
      (stringTest fun value => allowed.contains value)

section Compares

variable {candidate : Candidate} {resolver : Resolver} {predicate : Predicate} {value : ValueRef}
  {wanted : ExpectedKind}
  {decides : ScalarValue → Option Bool}

lemma Predicate.Compares.truth_eq (compares : predicate.Compares value wanted decides)
    (reads : Reads) :
    truth candidate resolver predicate reads = leaf value candidate resolver reads decides := by
  cases compares <;> rw [truth]

lemma Predicate.Compares.values_eq (compares : predicate.Compares value wanted decides) :
    predicate.values = [value] := by
  cases compares <;> rw [values]

end Compares

section Disjunctions

variable {candidate : Candidate} {resolver : Resolver}

lemma truth_not (of : Predicate) (reads : Reads) :
    truth candidate resolver (.not of) reads =
      ((truth candidate resolver of reads).1.negate, (truth candidate resolver of reads).2) := by
  rw [truth]

variable (of : List Predicate)

lemma truthAny_eq (start : Nat) (undecided : Option UnknownReason) (reads : Reads) :
    truthAny candidate resolver start undecided of reads =
      ((truthAll candidate resolver start undecided (of.map .not) reads).1.negate,
        (truthAll candidate resolver start undecided (of.map .not) reads).2) := by
  induction of generalizing undecided reads with
  | nil => cases undecided <;> simp [truthAny, map_nil, truthAll, Truth.negate]
  | cons inner rest ih =>
    rw [map_cons, truthAny, truthAll, truth_not]
    generalize truth candidate resolver inner reads = result
    obtain ⟨value, after⟩ := result
    cases value with
    | holds => rfl
    | fails => exact ih undecided after
    | unknown reason => exact ih (undecided.or (some reason)) after

/-- A disjunction is evaluated as the negated conjunction of the negated members, read by read. -/
theorem truth_any (reads : Reads) : truth candidate resolver (.any of) reads =
      truth candidate resolver (.not (.all (of.map .not))) reads := by
  simp [truth, truthAny_eq]

lemma Predicate.values_any : (not (.all (of.map .not))).values = (any of).values := by
  rw [values, values, values]
  induction of with
  | nil => rfl
  | cons inner rest ih =>
    rw [map_cons, valuesOf, valuesOf, ih, values]

end Disjunctions

section Induct

variable {motive : Predicate → Prop}
  (comparison : ∀ {predicate value wanted decides},
    predicate.Compares value wanted decides → motive predicate)
  (integerCompare : ∀ left op right mul add, motive (.integerCompare left op right mul add))
  (all : ∀ of, (∀ inner ∈ of, motive inner) → motive (.all of))
  (not : ∀ of, motive of → motive (.not of))
  (any : ∀ of, motive (.not (.all (of.map .not))) → motive (.any of))

include comparison integerCompare all not any

/-- What holds of comparisons, passes from the members to a conjunction and from a predicate to its
negation, and from a negated conjunction to the disjunction it stands for, holds of every
predicate. -/
theorem Predicate.induct : ∀ predicate, motive predicate
  | .integerAtLeast value threshold => comparison (.integerAtLeast value threshold)
  | .integerAtMost value threshold => comparison (.integerAtMost value threshold)
  | .integerEquals value expected => comparison (.integerEquals value expected)
  | .booleanEquals value expected => comparison (.booleanEquals value expected)
  | .stringIn value allowed => comparison (.stringIn value allowed)
  | .integerCompare left op right mul add => integerCompare left op right mul add
  | .all of => all of fun inner _ => induct inner
  | .any of => by
    refine any of (not _ (all _ fun inner listed => ?_))
    obtain ⟨member, inside, rfl⟩ := List.mem_map.mp listed
    exact not member (induct member)
  | .not of => not of (induct of)

end Induct

/-! ## Reading alike -/

/-- The notes do not change what is read. -/
theorem readNoting_fst {candidate : Candidate} {resolver : Resolver} (reference : ValueRef)
    (reads : Reads) :
    (resolver.readNoting reference candidate reads).1 = resolver.read reference candidate := by
  cases reference with
  | table tableId keyField pins valueColumn fallbackColumn absent =>
    simp only [Resolver.readNoting, ValueRef.isTable, if_true, Resolver.read]
    cases resolver.tableReading (.table tableId keyField pins valueColumn fallbackColumn absent)
      candidate <;> rfl
  | field | fact | keyedFact =>
    simp only [Resolver.readNoting, ValueRef.isTable]
    cases resolver.read _ candidate <;> rfl

/-- The references read alike for two candidates under two resolvers. -/
structure ReadAlike (candidate other : Candidate) (resolver world : Resolver)
    (references : List ValueRef) : Prop where
  noting : ∀ reference ∈ references, ∀ reads : Reads,
    resolver.readNoting reference candidate reads = world.readNoting reference other reads
  known : ∀ reference, resolver.knownUntil reference = world.knownUntil reference

section Truth

variable {candidate other : Candidate} {resolver world : Resolver}

lemma ReadAlike.mono {references fewer}
    (alike : ReadAlike candidate other resolver world references)
    (fewer_subset : ∀ reference ∈ fewer, reference ∈ references) :
    ReadAlike candidate other resolver world fewer :=
  ⟨fun reference listed => alike.noting reference (fewer_subset reference listed), alike.known⟩

lemma ReadAlike.recordKnown {references}
    (alike : ReadAlike candidate other resolver world references) (reads : Reads)
    (reference : ValueRef) :
    reads.recordKnown resolver reference = reads.recordKnown world reference := by
  simp [Reads.recordKnown, alike.known]

lemma integerSide_alike {value}
    (alike : ReadAlike candidate other resolver world [value]) (reads : Reads) :
    integerSide value candidate resolver reads = integerSide value other world reads := by
  simp [integerSide, alike.noting value mem_cons_self, alike.recordKnown]

lemma truthAll_alike {of}
    (each : ∀ inner ∈ of, ReadAlike candidate other resolver world inner.values →
      ∀ reads : Reads, truth candidate resolver inner reads = truth other world inner reads)
    (alike : ReadAlike candidate other resolver world (valuesOf of)) (start : Nat)
    (undecided : Option UnknownReason) (reads : Reads) :
    truthAll candidate resolver start undecided of reads =
      truthAll other world start undecided of reads := by
  induction of generalizing undecided reads with
  | nil => cases undecided <;> simp [truthAll]
  | cons inner rest ih =>
    rw [forall_mem_cons] at each
    have first := each.1 (alike.mono fun _ listed => mem_append_left _ listed)
    have later := ih each.2 (alike.mono fun _ listed => mem_append_right _ listed)
    simp [truthAll, first, later]

lemma truth_alike (predicate : Predicate)
    (alike : ReadAlike candidate other resolver world predicate.values) (reads : Reads) :
    truth candidate resolver predicate reads = truth other world predicate reads := by
  induction predicate using induct generalizing reads with
  | comparison compares =>
    rw [compares.values_eq] at alike
    rw [compares.truth_eq, compares.truth_eq]
    simp [leaf, alike.noting _ mem_cons_self, alike.recordKnown]
  | integerCompare left op right mul add =>
    have first := @integerSide_alike candidate other resolver world left
      (alike.mono (by simp [values]))
    have second := @integerSide_alike candidate other resolver world right
      (alike.mono (by simp [values]))
    simp [truth, first, second]
  | all of each => exact truthAll_alike each alike _ _ _
  | not of inner => simp [truth, inner alike reads]
  | any of negated =>
    rw [truth_any, truth_any]
    exact negated (by rwa [values_any]) reads

end Truth

/-! ## One candidate, two worlds -/

section Worlds

variable {candidate : Candidate} {resolver world : Resolver}

lemma assessGates_alike {gates}
    (alike : ReadAlike candidate candidate resolver world
      (gates.flatMap fun gate => gate.predicate.values)) (verdict : CandidateVerdict) :
    assessGates candidate resolver gates verdict = assessGates candidate world gates verdict := by
  induction gates generalizing verdict with
  | nil => rfl
  | cons gate rest ih =>
    have first := @truth_alike _ _ resolver world gate.predicate
      (alike.mono fun _ listed => mem_append_left _ listed)
    have later := ih (alike.mono fun _ listed => mem_append_right _ listed)
    simp [assessGates, assessGate, first, later]

lemma assessTerms_alike {terms}
    (alike : ReadAlike candidate candidate resolver world (terms.map (·.value))) (total : Int)
    (verdict : CandidateVerdict) :
    assessTerms candidate resolver terms total verdict =
      assessTerms candidate world terms total verdict := by
  induction terms generalizing total verdict with
  | nil => rfl
  | cons term rest ih =>
    have own := alike.noting term.value mem_cons_self
    have later := ih (alike.mono fun _ listed => mem_cons_of_mem _ listed)
    simp [assessTerms, assessTerm, termValue, own, later]

lemma assess_alike {policy}
    (alike : ReadAlike candidate candidate resolver world policy.valueRefs) :
    assess policy candidate resolver = assess policy candidate world := by
  have gates := assessGates_alike (alike.mono fun _ listed =>
    mem_append_left _ (mem_append_left _ listed))
  have terms := @assessTerms_alike candidate resolver world policy.scoring (alike.mono
    fun _ listed => mem_append_left _ (mem_append_right _ listed))
  have keys : policy.tieBreak.map (tieBreakValue candidate resolver) =
      policy.tieBreak.map (tieBreakValue candidate world) := by
    refine map_congr_left fun key listed => ?_
    cases key with
    | candidateId direction => rfl
    | value value direction =>
      have inside : value ∈ policy.valueRefs := by
        refine mem_append_right _ (mem_filterMap.mpr ⟨_, listed, rfl⟩)
      -- A tie-break key is read without notes.
      rw [tieBreakValue, tieBreakValue, ← readNoting_fst value .ignored,
        ← readNoting_fst value .ignored, alike.noting value inside]
  simp [assess, gates, terms, scoreCandidate, keys]

end Worlds

end Selection
