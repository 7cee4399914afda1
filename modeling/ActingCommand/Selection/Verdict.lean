import ActingCommand.Selection.Reads

/-!
# What the verdicts mean

The notes a pass keeps do not change what it decides. A candidate is ranked exactly when every
gate passes and every contribution and their sum stay in the 64-bit range, and a decision
reports for each candidate the verdict of its own assessment.
-/

namespace Selection

open Machine ThreeValued List Except Predicate

variable {candidate : Candidate} {resolver : Resolver}

/-! ## Truth values -/

def leafTruth (read : Except UnknownReason ScalarValue) (decides : ScalarValue → Option Bool) :
    Truth :=
  match read with
  | .error reason => .unknown reason
  | .ok value => (decides value).elim (.unknown .typeMismatch) .ofBool

def compareTruth (op : IntegerCompareOp) (mul : Option Nat) (add : Option Int)
    (left right : Except UnknownReason ScalarValue) : Truth :=
  match left.bind integerOf, right.bind integerOf with
  | .error reason, _ => .unknown reason
  | .ok _, .error reason => .unknown reason
  | .ok left, .ok right => .ofBool (op.holds left (scaled mul add right))

mutual

def Predicate.meaning (candidate : Candidate) (resolver : Resolver) : Predicate → Truth
  | .integerAtLeast value threshold =>
    leafTruth (resolver.read value candidate) (integerTest fun value => value ≥ threshold)
  | .integerAtMost value threshold =>
    leafTruth (resolver.read value candidate) (integerTest fun value => value ≤ threshold)
  | .integerEquals value expected =>
    leafTruth (resolver.read value candidate) (integerTest fun value => value = expected)
  | .booleanEquals value expected =>
    leafTruth (resolver.read value candidate) (booleanTest fun value => value = expected)
  | .stringIn value allowed =>
    leafTruth (resolver.read value candidate) (stringTest fun value => allowed.contains value)
  | .integerCompare left op right mul add =>
    compareTruth op mul add (resolver.read left candidate) (resolver.read right candidate)
  | .all of => .conj (meanings candidate resolver of)
  | .any of => .disj (meanings candidate resolver of)
  | .not of => (of.meaning candidate resolver).negate

def Predicate.meanings (candidate : Candidate) (resolver : Resolver) : List Predicate → List Truth
  | [] => []
  | inner :: rest =>
    inner.meaning candidate resolver :: meanings candidate resolver rest

end

variable (of : List Predicate) (reference : ValueRef) (reads : Reads)

lemma Predicate.meanings_eq_map :
    meanings candidate resolver of = of.map (·.meaning candidate resolver) := by
  induction of with
  | nil => rfl
  | cons inner rest ih => rw [meanings, ih, map_cons]

lemma leaf_fst (decides : ScalarValue → Option Bool) :
    (leaf reference candidate resolver reads decides).1 =
      leafTruth (resolver.read reference candidate) decides := by
  rw [leaf, ← readNoting_fst reference reads]
  generalize resolver.readNoting reference candidate reads = noted
  obtain ⟨read, reads⟩ := noted
  cases read with
  | error reason => rfl
  | ok value =>
    simp only [leafTruth, Except.bind]
    cases decides value <;> rfl

lemma integerSide_fst : (integerSide reference candidate resolver reads).1 =
      (resolver.read reference candidate).bind integerOf := by
  rw [integerSide, ← readNoting_fst reference reads]
  generalize resolver.readNoting reference candidate reads = noted
  obtain ⟨read, reads⟩ := noted
  cases read with
  | error reason => rfl
  | ok value =>
    simp only [Except.bind]
    cases integerOf value <;> rfl

lemma Predicate.Compares.meaning_eq {predicate : Predicate} {value wanted decides}
    (compares : predicate.Compares value wanted decides) :
    predicate.meaning candidate resolver = leafTruth (resolver.read value candidate) decides := by
  cases compares <;> rw [meaning]

lemma Predicate.meaning_any : (any of).meaning candidate resolver =
      (not (.all (of.map .not))).meaning candidate resolver := by
  have negated := congrArg Truth.negate
    (Truth.negate_disjFrom none (of.map (·.meaning candidate resolver)))
  rw [Truth.negate_negate, List.map_map] at negated
  simp only [meaning, meanings_eq_map, List.map_map, Truth.disj, Truth.conj,
    negated]
  congr 3

lemma truthAll_fst {of}
    (each : ∀ inner ∈ of, ∀ reads,
      (truth candidate resolver inner reads).1 = inner.meaning candidate resolver)
    (start : Nat) (undecided : Option UnknownReason) (reads : Reads) :
    (truthAll candidate resolver start undecided of reads).1 =
      Truth.conjFrom undecided (meanings candidate resolver of) := by
  induction of generalizing undecided reads with
  | nil => cases undecided <;> rfl
  | cons inner rest ih =>
    rw [forall_mem_cons] at each
    have first := each.1 reads
    rw [truthAll, meanings]
    generalize truth candidate resolver inner reads = result at first
    obtain ⟨value, noted⟩ := result
    simp only at first
    subst value
    cases inner.meaning candidate resolver with
    | holds => simpa only [Truth.conjFrom] using ih each.2 undecided noted
    | fails => cases undecided <;> rfl
    | unknown reason =>
      simpa only [Truth.conjFrom] using ih each.2 (undecided.or (some reason)) noted

lemma truth_fst (predicate : Predicate) (reads : Reads) :
    (truth candidate resolver predicate reads).1 = predicate.meaning candidate resolver := by
  induction predicate using induct generalizing reads with
  | comparison compares => rw [compares.truth_eq, leaf_fst, compares.meaning_eq]
  | integerCompare left op right mul add =>
    simp only [truth, meaning, compareTruth, integerSide_fst]
    cases (resolver.read left candidate).bind integerOf with
    | error reason => rfl
    | ok value => cases (resolver.read right candidate).bind integerOf <;> rfl
  | all of each => rw [truth, truthAll_fst each, meaning, Truth.conj]
  | not of inner => rw [truth_not, meaning, inner reads]
  | any of negated => rw [truth_any, negated reads, meaning_any]

/-! ## Gates and terms -/

def HardGate.Passes (gate : HardGate) (candidate : Candidate) (resolver : Resolver) : Prop :=
  gate.predicate.meaning candidate resolver = .holds ∨
    (∃ reason, gate.predicate.meaning candidate resolver = .unknown reason) ∧
      gate.onUnknown = .substituteVerdict true

variable (term : ScoringTerm)

def ScoringTerm.Transformed (candidate : Candidate) (resolver : Resolver) (transformedMilli : Int) :
    Prop :=
  termValue candidate resolver term = .ok transformedMilli ∨
    (∃ reason, termValue candidate resolver term = .error reason) ∧
      term.onUnknown = .substituteMilli transformedMilli

def ScoringTerm.Contributes (candidate : Candidate) (resolver : Resolver)
    (contributionMilli : Int) : Prop :=
  ∃ transformedMilli, term.Transformed candidate resolver transformedMilli ∧
    toI64 (contributionOf transformedMilli term.weightMilli) = some contributionMilli

lemma termValue_eq : termValue candidate resolver term =
      (resolver.read term.value candidate).bind term.transform.apply := by
  rw [termValue, readNoting_fst]

/-- A candidate that a rule keeps has the verdict it had, with more notes. -/
structure CandidateVerdict.Extends (later earlier : CandidateVerdict) : Prop where
  candidateId : later.candidateId = earlier.candidateId
  status : later.status = earlier.status
  scoreMilli : later.scoreMilli = earlier.scoreMilli

lemma CandidateVerdict.Extends.refl (verdict : CandidateVerdict) : verdict.Extends verdict :=
  ⟨rfl, rfl, rfl⟩

lemma CandidateVerdict.Extends.trans {first second third : CandidateVerdict}
    (later : third.Extends second) (earlier : second.Extends first) : third.Extends first :=
  ⟨later.candidateId.trans earlier.candidateId, later.status.trans earlier.status,
    later.scoreMilli.trans earlier.scoreMilli⟩

/-- How a rule leaves a verdict: kept under the condition, or not ranked. -/
def RuleStep.Leaves (step : RuleStep) (verdict : CandidateVerdict) (keeps : Prop) : Prop :=
  match step with
  | .kept later => keeps ∧ later.Extends verdict
  | .settled later | .aborted later _ =>
    ¬ keeps ∧ later.candidateId = verdict.candidateId ∧ later.status ≠ .ranked ∧
      later.scoreMilli = verdict.scoreMilli

lemma gateOutcome_spec (gate : HardGate) :
    match gateOutcome (gate.predicate.meaning candidate resolver) gate.onUnknown with
    | .ok (_, keep) => keep = true ↔ gate.Passes candidate resolver
    | .error _ => ¬ gate.Passes candidate resolver := by
  unfold HardGate.Passes
  cases gate.predicate.meaning candidate resolver with
  | holds | fails => simp [gateOutcome]
  | unknown reason => cases gate.onUnknown <;> simp [gateOutcome]

lemma applyGate_leaves {candidateId gateId : String} {marks verdict outcome} {keeps : Prop}
    (decided : match outcome with
      | .ok (_, keep) => keep = true ↔ keeps
      | .error _ => ¬ keeps) :
    (applyGate candidateId gateId marks verdict outcome).Leaves verdict keeps := by
  cases outcome with
  | error reason => exact ⟨decided, rfl, by simp, rfl⟩
  | ok outcome =>
    obtain ⟨outcome, keep⟩ := outcome
    cases keep with
    | true => exact ⟨decided.mp rfl, rfl, rfl, rfl⟩
    | false =>
      refine ⟨fun passes => Bool.noConfusion (decided.mpr passes), ?_⟩
      refine ⟨?_, ?_, ?_⟩ <;> cases outcome <;> simp [rejectGate]

lemma assessGate_leaves (gate : HardGate) (verdict : CandidateVerdict) :
    (assessGate candidate resolver gate verdict).Leaves verdict
      (gate.Passes candidate resolver) := by
  rw [assessGate]
  simp only [truth_fst]
  exact applyGate_leaves (gateOutcome_spec gate)

lemma assessGates_leaves (gates : List HardGate) (verdict : CandidateVerdict) :
    (assessGates candidate resolver gates verdict).Leaves verdict
      (∀ gate ∈ gates, gate.Passes candidate resolver) := by
  induction gates generalizing verdict with
  | nil => exact ⟨by simp, .refl verdict⟩
  | cons gate rest ih =>
    have first := @assessGate_leaves candidate resolver gate verdict
    rw [assessGates]
    cases step : assessGate candidate resolver gate verdict with
    | kept noted =>
      rw [step] at first
      obtain ⟨passes, same⟩ := first
      have later := ih noted
      simp only
      cases ended : assessGates candidate resolver rest noted with
      | kept last =>
        rw [ended] at later
        exact ⟨by simpa using ⟨passes, later.1⟩, later.2.trans same⟩
      | settled last | aborted last reason =>
        rw [ended] at later
        obtain ⟨stops, sameId, dropped, sameScore⟩ := later
        exact ⟨fun all => stops fun other listed => all other (mem_cons_of_mem _ listed),
          sameId.trans same.candidateId, dropped, sameScore.trans same.scoreMilli⟩
    | settled last | aborted last reason =>
      rw [step] at first
      exact ⟨fun all => first.1 (all gate mem_cons_self), first.2⟩

lemma termOutcome_spec : match termOutcome (termValue candidate resolver term) term.onUnknown with
    | .ok (_, some transformedMilli) => term.Transformed candidate resolver transformedMilli
    | .ok (_, none) | .error _ => ∀ transformedMilli,
        ¬ term.Transformed candidate resolver transformedMilli := by
  unfold ScoringTerm.Transformed
  cases termValue candidate resolver term with
  | ok transformedMilli => simp [termOutcome]
  | error reason => cases term.onUnknown <;> simp [termOutcome]

theorem assessTerm_leaves {term verdict step} {contributionMilli : Int}
    (answer : assessTerm candidate resolver term verdict = .ok (step, contributionMilli)) :
    step.Leaves verdict (∃ x, term.Contributes candidate resolver x) ∧
      ∀ later, step = .kept later → term.Contributes candidate resolver contributionMilli := by
  have decided := @termOutcome_spec candidate resolver term
  rw [assessTerm] at answer
  simp only at answer
  generalize termOutcome (termValue candidate resolver term) term.onUnknown = outcome
    at decided answer
  rcases outcome with reason | ⟨outcome, _ | transformedMilli⟩
  rotate_right
  · simp only [applyTerm, bind_ok_iff, okOr_ok_iff, pure_ok_iff, Prod.mk.injEq] at answer
    obtain ⟨narrowed, fits, rfl, rfl⟩ := answer
    have scored : term.Contributes candidate resolver narrowed := ⟨transformedMilli, decided, fits⟩
    exact ⟨⟨⟨narrowed, scored⟩, rfl, rfl, rfl⟩, fun _ _ => scored⟩
  all_goals
    simp only [applyTerm, pure_ok_iff, Prod.mk.injEq] at answer
    obtain ⟨rfl, rfl⟩ := answer
    refine ⟨⟨?_, rfl, by simp, rfl⟩, by simp⟩
    rintro ⟨_, value, transformed, _⟩
    exact decided value transformed

abbrev Contributions (candidate : Candidate) (resolver : Resolver) (terms : List ScoringTerm)
    (contributions : List Int) : Prop :=
  List.Forall₂ (fun term x => ScoringTerm.Contributes term candidate resolver x) terms
    contributions

lemma assessTerms_leaves {terms : List ScoringTerm} {total last : Int} {verdict step}
    (answer : assessTerms candidate resolver terms total verdict = .ok (step, last)) :
    step.Leaves verdict (∃ xs, Contributions candidate resolver terms xs) ∧
      ∀ later, step = .kept later →
        ∃ xs, Contributions candidate resolver terms xs ∧ last = total + xs.sum := by
  induction terms generalizing total verdict with
  | nil =>
    simp only [assessTerms, pure_ok_iff, Prod.mk.injEq] at answer
    obtain ⟨rfl, rfl⟩ := answer
    exact ⟨⟨⟨[], .nil⟩, .refl verdict⟩, fun _ _ => ⟨[], .nil, by simp⟩⟩
  | cons term rest ih =>
    simp only [assessTerms, bind_ok_iff] at answer
    obtain ⟨⟨first, x⟩, scored, answer⟩ := answer
    obtain ⟨leaves, contributes⟩ := assessTerm_leaves scored
    have uncons : (∃ xs, Contributions candidate resolver (term :: rest) xs) →
        (∃ x, term.Contributes candidate resolver x) ∧
          ∃ xs, Contributions candidate resolver rest xs := by
      rintro ⟨xs, each⟩
      cases each with
      | cons head tail => exact ⟨⟨_, head⟩, _, tail⟩
    cases first with
    | kept noted =>
      simp only at answer
      obtain ⟨later, total⟩ := ih answer
      have head := contributes noted rfl
      refine ⟨?_, ?_⟩
      · cases step with
        | kept last =>
          obtain ⟨⟨xs, tail⟩, same⟩ := later
          exact ⟨⟨x :: xs, .cons head tail⟩, same.trans leaves.2⟩
        | settled last | aborted last reason =>
          obtain ⟨stops, sameId, dropped, sameScore⟩ := later
          exact ⟨fun all => stops (uncons all).2, sameId.trans leaves.2.candidateId, dropped,
            sameScore.trans leaves.2.scoreMilli⟩
      · intro last kept
        obtain ⟨xs, tail, rfl⟩ := total last kept
        exact ⟨x :: xs, .cons head tail, by rw [sum_cons]; ring⟩
    | settled last | aborted last reason =>
      cases answer
      exact ⟨⟨fun all => leaves.1 (uncons all).1, leaves.2⟩, by simp⟩

/-! ## Candidates -/

/-- Every gate lets the candidate through, and its score is the sum of the contributions. -/
structure Scores (policy : SelectionPolicy) (candidate : Candidate) (resolver : Resolver)
    (scoreMilli : Int) : Prop where
  gates : ∀ gate ∈ policy.gates, gate.Passes candidate resolver
  terms : ∃ xs, Contributions candidate resolver policy.scoring xs ∧ scoreMilli = xs.sum

def Assessment.Reports (assessment : Assessment) (policy : SelectionPolicy)
    (candidate : Candidate) (resolver : Resolver) : Prop :=
  match assessment with
  | .settled verdict (some ranked) =>
    verdict.candidateId = candidate.candidateId ∧ verdict.status = .ranked ∧
      verdict.scoreMilli = some ranked.scoreMilli ∧ Scores policy candidate resolver
        ranked.scoreMilli ∧
      ranked = ⟨candidate.candidateId, ranked.scoreMilli,
        policy.tieBreak.map (tieBreakValue candidate resolver)⟩
  | .settled verdict none | .aborted verdict _ =>
    verdict.candidateId = candidate.candidateId ∧ verdict.status ≠ .ranked ∧
      ∀ scoreMilli, ¬ Scores policy candidate resolver scoreMilli

lemma assess_reports {policy : SelectionPolicy} {assessment}
    (answer : assess policy candidate resolver = .ok assessment) :
    assessment.Reports policy candidate resolver := by
  have gates := @assessGates_leaves candidate resolver policy.gates
    (freshVerdict candidate.candidateId)
  rw [assess] at answer
  cases step : assessGates candidate resolver policy.gates
    (freshVerdict candidate.candidateId) with
  | settled verdict | aborted verdict reason =>
    rw [step] at gates answer
    simp only [pure_ok_iff] at answer
    subst assessment
    exact ⟨gates.2.1, gates.2.2.1, fun scoreMilli scores => gates.1 scores.gates⟩
  | kept verdict =>
    rw [step] at gates answer
    simp only [bind_ok_iff] at answer
    obtain ⟨⟨ended, total⟩, scored, answer⟩ := answer
    obtain ⟨leaves, sums⟩ := assessTerms_leaves scored
    cases ended with
    | settled last | aborted last reason =>
      simp only [pure_ok_iff] at answer
      subst assessment
      refine ⟨leaves.2.1.trans gates.2.candidateId, leaves.2.2.1, fun scoreMilli scores => ?_⟩
      obtain ⟨xs, each, -⟩ := scores.terms
      exact leaves.1 ⟨xs, each⟩
    | kept last =>
      simp only [scoreCandidate, bind_ok_iff, okOr_ok_iff, pure_ok_iff] at answer
      obtain ⟨narrowed, fits, rfl⟩ := answer
      obtain ⟨xs, each, rfl⟩ := sums last rfl
      obtain ⟨rfl, -⟩ := toI64_eq_some_iff.mp fits
      have same := leaves.2.trans gates.2
      exact ⟨same.candidateId, same.status, rfl, ⟨gates.1, xs, each, by simp⟩, rfl⟩

/-! ## Decisions -/

def Assessment.verdict : Assessment → CandidateVerdict
  | .aborted verdict _ => verdict
  | .settled verdict _ => verdict

def AssessedSet.verdicts : AssessedSet → List CandidateVerdict
  | .aborted verdicts _ => verdicts
  | .settled verdicts _ => verdicts

lemma assessAll_verdicts {policy candidates assessed}
    (answer : assessAll policy resolver candidates = .ok assessed) :
    ∀ verdict ∈ assessed.verdicts, ∃ candidate ∈ candidates, ∃ assessment,
      assess policy candidate resolver = .ok assessment ∧ assessment.verdict = verdict := by
  induction candidates generalizing assessed with
  | nil =>
    simp only [assessAll, pure_ok_iff] at answer
    subst assessed
    simp [AssessedSet.verdicts]
  | cons candidate rest ih =>
    simp only [assessAll, bind_ok_iff] at answer
    obtain ⟨assessment, first, answer⟩ := answer
    have here : ∃ other ∈ candidate :: rest, ∃ found,
        assess policy other resolver = .ok found ∧ found.verdict = assessment.verdict :=
      ⟨candidate, mem_cons_self, assessment, first, rfl⟩
    cases assessment with
    | aborted verdict reason =>
      simp only [pure_ok_iff] at answer
      subst assessed
      intro other listed
      obtain rfl := mem_singleton.mp listed
      exact here
    | settled verdict ranked =>
      simp only [bind_ok_iff] at answer
      obtain ⟨others, assessedRest, answer⟩ := answer
      have later := ih assessedRest
      have verdicts : assessed.verdicts = verdict :: others.verdicts := by
        cases others with
        | aborted | settled =>
          simp only [pure_ok_iff] at answer
          subst assessed
          rfl
      rw [verdicts]
      rintro other (_ | ⟨_, listed⟩)
      · exact here
      · obtain ⟨found, inside, known⟩ := later other listed
        exact ⟨found, mem_cons_of_mem _ inside, known⟩

/-- A verdict with more reasons, or a rank, is otherwise the verdict it was. -/
structure CandidateVerdict.Annotates (later earlier : CandidateVerdict) : Prop
    extends later.Extends earlier where
  gates : later.gates = earlier.gates
  terms : later.terms = earlier.terms

lemma CandidateVerdict.Annotates.refl (verdict : CandidateVerdict) : verdict.Annotates verdict :=
  ⟨.refl verdict, rfl, rfl⟩

lemma CandidateVerdict.Annotates.trans {first second third : CandidateVerdict}
    (later : third.Annotates second) (earlier : second.Annotates first) : third.Annotates first :=
  ⟨later.toExtends.trans earlier.toExtends, later.gates.trans earlier.gates,
    later.terms.trans earlier.terms⟩

lemma updateVerdict_annotates {verdicts} {candidateId : String} {update}
    (keeps : ∀ verdict, (update verdict).Annotates verdict) :
    ∀ verdict ∈ updateVerdict verdicts candidateId update,
      ∃ earlier ∈ verdicts, verdict.Annotates earlier := by
  induction verdicts with
  | nil => simp [updateVerdict]
  | cons first rest ih =>
    intro verdict listed
    rw [updateVerdict] at listed
    split at listed
    · rcases mem_cons.mp listed with rfl | later
      · exact ⟨first, mem_cons_self, keeps first⟩
      · exact ⟨verdict, mem_cons_of_mem _ later, .refl verdict⟩
    rcases mem_cons.mp listed with rfl | later
    · exact ⟨verdict, mem_cons_self, .refl verdict⟩
    · obtain ⟨earlier, inside, annotated⟩ := ih verdict later
      exact ⟨earlier, mem_cons_of_mem _ inside, annotated⟩

lemma rankVerdict_annotates (rank : Nat) (verdict : CandidateVerdict) :
    (rankVerdict rank verdict).Annotates verdict :=
  ⟨⟨rfl, rfl, rfl⟩, rfl, rfl⟩

lemma rankVerdicts_annotates (survivors : List Ranked) (verdicts : List CandidateVerdict) :
    ∀ verdict ∈ rankVerdicts survivors verdicts,
      ∃ earlier ∈ verdicts, verdict.Annotates earlier := by
  unfold rankVerdicts
  generalize survivors.zipIdx = entries
  induction entries generalizing verdicts with
  | nil => exact fun verdict listed => ⟨verdict, listed, .refl verdict⟩
  | cons entry rest ih =>
    intro verdict listed
    obtain ⟨middle, inside, annotated⟩ := ih _ verdict listed
    obtain ⟨earlier, known, before⟩ :=
      updateVerdict_annotates (rankVerdict_annotates (entry.2 + 1)) middle inside
    exact ⟨earlier, known, annotated.trans before⟩

lemma markSelected_annotates (selected : List String) (verdict : CandidateVerdict) :
    (markSelected selected verdict).Annotates verdict := by
  unfold markSelected
  split
  · exact ⟨⟨rfl, rfl, rfl⟩, rfl, rfl⟩
  · exact .refl verdict

lemma checkCandidateIds_ok_iff {candidates seen} {u : Unit} :
    checkCandidateIds candidates seen = .ok u ↔
      (∀ candidate ∈ candidates, candidate.candidateId.isEmpty = false) ∧
        (candidates.map (·.candidateId)).Nodup ∧
        ∀ candidate ∈ candidates, candidate.candidateId ∉ seen := by
  induction candidates generalizing seen with
  | nil => simp [checkCandidateIds, pure, Except.pure]
  | cons candidate rest ih =>
    rw [forall_mem_cons, forall_mem_cons, map_cons, nodup_cons]
    simp only [checkCandidateIds, bind_ok_iff, failIf_ok_iff, ih, exists_and_left,
      exists_const, mem_cons, not_or, List.mem_map, not_exists, not_and, Bool.not_eq_true]
    constructor
    · rintro ⟨named, new, others, nodup, fresh⟩
      exact ⟨⟨named, others⟩, ⟨fun other listed => (fresh other listed).1, nodup⟩, new,
        fun other listed => (fresh other listed).2⟩
    · rintro ⟨⟨named, others⟩, ⟨apart, nodup⟩, new, fresh⟩
      exact ⟨named, new, others, nodup, fun other listed =>
        ⟨apart other listed, fresh other listed⟩⟩

/-- A candidate set is accepted when it is small and its identifiers are nonempty and distinct. -/
theorem checkCandidateSet_ok_iff {candidates} {u : Unit} :
    checkCandidateSet candidates = .ok u ↔ candidates.length ≤ maxCandidates ∧
      (∀ candidate ∈ candidates, candidate.candidateId.isEmpty = false) ∧
        (candidates.map (·.candidateId)).Nodup := by
  simp [checkCandidateSet, bind_ok_iff, failIf_ok_iff, checkCandidateIds_ok_iff]

section Evaluation

variable {digests : Digests} {policy : SelectionPolicy} {tables : SelectionTables}
  {candidates : List Candidate} {facts : SelectionFactSnapshot} {nowUnixMs : Nat}
  {decision : SelectionDecision}

lemma Admitted.nodup {policySha256 : String}
    (admitted : Admitted digests policy tables candidates facts nowUnixMs policySha256) :
    (candidates.map (·.candidateId)).Nodup :=
  (checkCandidateSet_ok_iff.mp admitted.set).2.2

/-- Every verdict of a decision is the verdict of an assessment, ranked or not. -/
theorem evaluate_verdicts
    (answer : evaluateWithTables digests policy tables candidates facts nowUnixMs =
      .ok decision) :
    policy.validate = .ok () ∧ tables.checkBound policy = .ok () ∧
      (candidates.map (·.candidateId)).Nodup ∧
      ∀ verdict ∈ decision.candidates, ∃ lists, readLists policy facts nowUnixMs = .ok lists ∧
        ∃ candidate ∈ candidates, ∃ assessment,
          assess policy candidate (.new policy facts lists tables nowUnixMs) = .ok assessment ∧
          verdict.Annotates assessment.verdict := by
  obtain ⟨_, admitted, cases⟩ := evaluate_cases answer
  refine ⟨admitted.valid, admitted.bound, admitted.nodup, ?_⟩
  intro verdict listed
  rcases cases with ⟨_, -, rfl⟩ | ⟨lists, assessed, read, all, rfl⟩
  · simp [decideUnread, finish] at listed
  have origin := assessAll_verdicts all
  refine ⟨lists, read, ?_⟩
  cases assessed with
  | aborted verdicts reason =>
    obtain ⟨candidate, inside, assessment, answered, rfl⟩ := origin verdict listed
    exact ⟨candidate, inside, assessment, answered, .refl _⟩
  | settled verdicts survivors =>
    obtain ⟨ranked, inRanked, rfl⟩ := List.mem_map.mp listed
    obtain ⟨earlier, inside, before⟩ := rankVerdicts_annotates _ _ ranked inRanked
    obtain ⟨candidate, known, assessment, answered, rfl⟩ := origin earlier inside
    exact ⟨candidate, known, assessment, answered, (markSelected_annotates _ _).trans before⟩

variable (digests policy tables candidates facts nowUnixMs) in
/-- The evaluation ranks the candidate with the score. -/
def Ranks
    (candidateId : String) (scoreMilli : Int) : Prop :=
  ∃ decision, evaluateWithTables digests policy tables candidates facts nowUnixMs =
      .ok decision ∧
    ∃ verdict ∈ decision.candidates, verdict.candidateId = candidateId ∧
      verdict.status = .ranked ∧ verdict.scoreMilli = some scoreMilli

lemma Ranks.scores {candidate} {scoreMilli : Int}
    (ranks : Ranks digests policy tables candidates facts nowUnixMs candidate.candidateId
      scoreMilli) (inside : candidate ∈ candidates) :
    policy.validate = .ok () ∧ tables.checkBound policy = .ok () ∧
      ∃ lists, readLists policy facts nowUnixMs = .ok lists ∧
        Scores policy candidate (.new policy facts lists tables nowUnixMs) scoreMilli := by
  obtain ⟨decision, answer, verdict, listed, named, ranked, scored⟩ := ranks
  obtain ⟨valid, bound, distinct, origin⟩ := evaluate_verdicts answer
  obtain ⟨lists, read, other, known, assessment, answered, same⟩ := origin verdict listed
  have reports := assess_reports answered
  have status : assessment.verdict.status = .ranked := same.status.symm.trans ranked
  match assessment, reports with
  | .settled _ (some entry), ⟨sameId, _, score, scores, _⟩ =>
    obtain rfl : other = candidate :=
      inj_on_of_nodup_map distinct known inside
        ((sameId.symm.trans same.candidateId.symm).trans named)
    have equal : some entry.scoreMilli = some scoreMilli :=
      score.symm.trans (same.scoreMilli.symm.trans scored)
    rw [Option.some.inj equal] at scores
    exact ⟨valid, bound, lists, read, scores⟩
  | .settled _ none, ⟨_, apart, _⟩ => exact absurd status apart
  | .aborted _ _, ⟨_, apart, _⟩ => exact absurd status apart

end Evaluation

end Selection
