import ActingCommand.Selection.Choice

/-!
# The order of the candidates

An evaluation stops at the first candidate that ends it, yet what it decides does not depend on
their order: each candidate is assessed on its own, and the ranking is one total order. Only
where one candidate ends the evaluation and the numbers of another overflow does the order
choose which of the two is reported.
-/

namespace Selection

open Machine Std SortKeys List

/-! ## Candidates -/

section Assess

variable {policy : SelectionPolicy} {resolver : Resolver} {candidate : Candidate}
  {error : SelectionError}

/-- The only error of an assessment is a number that overflows. -/
theorem applyTerm_error {candidateId : String} {term marks} {staticUnknown : Bool}
    {verdict outcome}
    (answer : applyTerm candidateId term marks staticUnknown verdict outcome = .error error) :
    error.code = .arithmeticOverflow := by
  match outcome with
  | .error reason => cases answer
  | .ok (_, none) => cases answer
  | .ok (_, some transformedMilli) =>
    simp only [applyTerm, Except.bind_error_iff, Except.okOr_error_iff] at answer
    rcases answer with ⟨-, rfl⟩ | ⟨_, -, answer⟩
    · rfl
    · cases answer

lemma assessTerms_error {terms} {total : Int} {verdict}
    (answer : assessTerms candidate resolver terms total verdict = .error error) :
    error.code = .arithmeticOverflow := by
  induction terms generalizing total verdict with
  | nil => cases answer
  | cons term rest ih =>
    simp only [assessTerms, Except.bind_error_iff] at answer
    rcases answer with overflow | ⟨⟨step, contributionMilli⟩, -, answer⟩
    · exact applyTerm_error overflow
    cases step with
    | kept verdict => exact ih answer
    | settled | aborted => cases answer

lemma assess_error (answer : assess policy candidate resolver = .error error) :
    error.code = .arithmeticOverflow := by
  rw [assess] at answer
  cases step : assessGates candidate resolver policy.gates
    (freshVerdict candidate.candidateId) with
  | settled | aborted =>
    rw [step] at answer
    cases answer
  | kept verdict =>
    rw [step] at answer
    simp only [Except.bind_error_iff] at answer
    rcases answer with overflow | ⟨⟨ended, total⟩, -, answer⟩
    · exact assessTerms_error overflow
    cases ended with
    | settled | aborted => cases answer
    | kept verdict =>
      simp only [scoreCandidate, Except.bind_error_iff, Except.okOr_error_iff] at answer
      rcases answer with ⟨-, rfl⟩ | ⟨_, -, answer⟩
      · rfl
      · cases answer

lemma assessAll_error {candidates} (answer : assessAll policy resolver candidates = .error error) :
    ∃ candidate ∈ candidates, assess policy candidate resolver = .error error := by
  induction candidates with
  | nil => cases answer
  | cons candidate rest ih =>
    simp only [assessAll, Except.bind_error_iff] at answer
    rcases answer with overflow | ⟨assessment, -, answer⟩
    · exact ⟨candidate, mem_cons_self, overflow⟩
    cases assessment with
    | aborted => cases answer
    | settled verdict ranked =>
      simp only [Except.bind_error_iff] at answer
      rcases answer with later | ⟨assessed, -, answer⟩
      · obtain ⟨other, listed, overflow⟩ := ih later
        exact ⟨other, mem_cons_of_mem _ listed, overflow⟩
      · cases assessed <;> cases answer

end Assess

/-! ## The ranking -/

section Ranking

variable {policy : SelectionPolicy} {resolver : Resolver}

/-- The ranks of distinct candidates do not depend on how they are listed. -/
theorem inOrder_eq_of_perm {survivors permuted} (same : survivors.Perm permuted)
    (distinct : (survivors.map (·.1.candidateId)).Nodup) :
    inOrder policy resolver survivors = inOrder policy resolver permuted := by
  have perm : (inOrder policy resolver survivors).Perm (inOrder policy resolver permuted) :=
    inOrder_perm.trans (same.trans inOrder_perm.symm)
  refine List.Perm.eq_of_pairwise ?_ inOrder_pairwise inOrder_pairwise perm
  intro left right listed listed' before after
  have level : rankOrder policy resolver left right = .eq :=
    OrientedCmp.isLE_antisymm before after
  refine inj_on_of_nodup_map distinct (inOrder_perm.mem_iff.mp listed) ?_
    (candidateId_of_rankOrder level)
  exact same.mem_iff.mpr (inOrder_perm.mem_iff.mp listed')

end Ranking

/-! ## The verdicts -/

lemma updateVerdict_eq_map {verdicts} {candidateId : String} {update}
    (distinct : (verdicts.map (·.candidateId)).Nodup) :
    updateVerdict verdicts candidateId update =
      verdicts.map fun verdict =>
        if verdict.candidateId = candidateId then update verdict else verdict := by
  induction verdicts with
  | nil => rfl
  | cons verdict rest ih =>
    rw [map_cons, nodup_cons] at distinct
    rw [updateVerdict, map_cons]
    by_cases named : verdict.candidateId = candidateId
    · rw [if_pos named, if_pos named]
      have others : rest.map (fun other =>
          if other.candidateId = candidateId then update other else other) = rest := by
        conv_rhs => rw [← List.map_id rest]
        refine map_congr_left fun other listed => if_neg fun same => distinct.1 ?_
        rw [named, ← same]
        exact List.mem_map_of_mem listed
      rw [others]
    · rw [if_neg named, if_neg named, ih distinct.2]

/-- Ranking the verdicts of distinct candidates changes each verdict on its own. -/
theorem rankVerdicts_eq_map (ordered : List Ranked) :
    ∃ rank : CandidateVerdict → CandidateVerdict,
      (∀ verdict, (rank verdict).candidateId = verdict.candidateId) ∧
      ∀ verdicts : List CandidateVerdict, (verdicts.map (·.candidateId)).Nodup →
        rankVerdicts ordered verdicts = verdicts.map rank := by
  unfold rankVerdicts
  generalize ordered.zipIdx = entries
  induction entries with
  | nil => exact ⟨id, fun _ => rfl, fun verdicts _ => (List.map_id verdicts).symm⟩
  | cons entry rest ih =>
    obtain ⟨later, keeps, ranks⟩ := ih
    let here : CandidateVerdict → CandidateVerdict := fun verdict =>
      if verdict.candidateId = entry.1.candidateId then rankVerdict (entry.2 + 1) verdict
      else verdict
    have same (verdict : CandidateVerdict) : (here verdict).candidateId = verdict.candidateId := by
      simp only [here]
      split <;> rfl
    refine ⟨later ∘ here, fun verdict => (keeps _).trans (same verdict), ?_⟩
    intro verdicts distinct
    have ids : (verdicts.map here).map (·.candidateId) = verdicts.map (·.candidateId) := by
      rw [List.map_map]
      exact map_congr_left fun verdict _ => same verdict
    have first : updateVerdict verdicts entry.1.candidateId (rankVerdict (entry.2 + 1)) =
        verdicts.map here := updateVerdict_eq_map distinct
    rw [foldl_cons, first, ranks _ (ids.symm ▸ distinct), List.map_map]

/-! ## Evaluations -/

section Evaluation

variable {digests : Digests} {policy : SelectionPolicy} {tables : SelectionTables}
  {candidates permuted : List Candidate} {facts : SelectionFactSnapshot} {nowUnixMs : Nat}
  {policySha256 : String} {resolver : Resolver} {decision other : SelectionDecision}

lemma Admitted.perm (same : candidates.Perm permuted)
    (admitted : Admitted digests policy tables candidates facts nowUnixMs policySha256) :
    Admitted digests policy tables permuted facts nowUnixMs policySha256 := by
  refine { admitted with set := ?_, canonical := ?_ }
  · obtain ⟨short, named, distinct⟩ := checkCandidateSet_ok_iff.mp admitted.set
    refine checkCandidateSet_ok_iff.mpr ⟨same.length_eq ▸ short, ?_, ?_⟩
    · exact fun candidate listed => named candidate (same.mem_iff.mpr listed)
    · exact (same.map _).nodup_iff.mp distinct
  by_cases none : candidates = []
  · subst none
    obtain rfl := same.nil_eq
    exact admitted.canonical
  have some : permuted ≠ [] := fun empty => none (by
    subst empty
    exact same.eq_nil)
  have each := (checkCanonical_ok_iff_each none).mp admitted.canonical
  exact (checkCanonical_ok_iff_each some).mpr fun candidate listed =>
    each candidate (same.mem_iff.mpr listed)

lemma assess_candidateId {candidate assessment}
    (answer : assess policy candidate resolver = .ok assessment) :
    assessment.verdict.candidateId = candidate.candidateId := by
  have reports := assess_reports answer
  match assessment, reports with
  | .settled _ (some _), ⟨same, _⟩ => exact same
  | .settled _ none, ⟨same, _⟩ => exact same
  | .aborted _ _, ⟨same, _⟩ => exact same

lemma verdictOf_ids (each : ∀ candidate ∈ candidates, Settles policy resolver candidate) :
    (candidates.filterMap (verdictOf policy resolver)).map (·.candidateId) =
      candidates.map (·.candidateId) := by
  induction candidates with
  | nil => rfl
  | cons candidate rest ih =>
    obtain ⟨verdict, ranked, answer⟩ := each candidate mem_cons_self
    have own : verdictOf policy resolver candidate = some verdict := by
      rw [verdictOf, answer]
      rfl
    rw [filterMap_cons_some own, map_cons, map_cons,
      ih fun other listed => each other (mem_cons_of_mem _ listed)]
    exact congrArg (· :: _) (assess_candidateId answer)

/-- The decision over the survivors changes each verdict on its own. -/
theorem decideSurvivors_candidates (policy : SelectionPolicy) (ordered : List Ranked) :
    ∃ last : CandidateVerdict → CandidateVerdict,
      (∀ verdict, (last verdict).candidateId = verdict.candidateId) ∧
      ∀ header reasons survivors (verdicts : List CandidateVerdict),
        sortRanked survivors = ordered → (verdicts.map (·.candidateId)).Nodup →
        (decideSurvivors policy header reasons verdicts survivors).candidates =
          verdicts.map last := by
  obtain ⟨rank, keeps, ranks⟩ := rankVerdicts_eq_map ordered
  let selected := selectedOf ordered
    (outcomeOf ordered (requestedCount policy.selection ordered.length))
  refine ⟨markSelected selected ∘ rank, ?_, ?_⟩
  · intro verdict
    exact (markSelected_annotates selected (rank verdict)).candidateId.trans (keeps verdict)
  · rintro header reasons survivors verdicts rfl distinct
    simp [decideSurvivors, finish, ranks verdicts distinct, List.map_map, selected]

/-- Unless something was unknown, a decision reports every candidate, in order. -/
theorem evaluate_ids
    (answer : evaluateWithTables digests policy tables candidates facts nowUnixMs = .ok decision)
    (known : decision.outcome.isUnknown = false) :
    decision.candidates.map (·.candidateId) = candidates.map (·.candidateId) := by
  obtain ⟨_, admitted, cases⟩ := evaluate_cases answer
  rcases cases with ⟨_, -, rfl⟩ | ⟨lists, assessed, -, all, rfl⟩
  · simp [decideUnread, finish, SelectionOutcome.isUnknown] at known
  cases assessed with
  | aborted verdicts reason =>
    simp [decideAssessed, finish, SelectionOutcome.isUnknown] at known
  | settled verdicts survivors =>
    have each := settles_of_assessAll all
    rw [assessAll_settled each, Except.ok.injEq, AssessedSet.settled.injEq] at all
    obtain ⟨rfl, -⟩ := all
    have ids := verdictOf_ids each
    obtain ⟨last, keeps, decided⟩ := decideSurvivors_candidates policy (sortRanked survivors)
    rw [decideAssessed, decided _ _ survivors _ rfl (by rw [ids]; exact admitted.nodup),
      List.map_map, ← ids]
    exact map_congr_left fun verdict _ => keeps verdict

/-- Two decisions of one outcome kind and one selection, in which no candidate has two
verdicts; unless something was unknown, both report the outcome and every candidate. -/
structure SameDecision (decision other : SelectionDecision) : Prop where
  unknown : decision.outcome.isUnknown = other.outcome.isUnknown
  outcome : decision.outcome.isUnknown = false → decision.outcome = other.outcome
  selected : decision.selected = other.selected
  verdict : ∀ own ∈ decision.candidates, ∀ also ∈ other.candidates,
    own.candidateId = also.candidateId → own = also
  complete : decision.outcome.isUnknown = false → decision.candidates.Perm other.candidates

lemma sameDecision_survivors (same : candidates.Perm permuted)
    (distinct : (candidates.map (·.candidateId)).Nodup)
    (each : ∀ candidate ∈ candidates, Settles policy resolver candidate)
    (header header' : DecisionHeader) :
    SameDecision
      (decideAssessed policy header (.settled (candidates.filterMap (verdictOf policy resolver))
        ((scoredOf policy resolver candidates).map (rankedOf policy resolver))))
      (decideAssessed policy header' (.settled (permuted.filterMap (verdictOf policy resolver))
        ((scoredOf policy resolver permuted).map (rankedOf policy resolver)))) := by
  have scores : ((scoredOf policy resolver candidates).map (·.1.candidateId)).Nodup := by
    have part := (scoredOf_sublist policy resolver candidates).map (·.candidateId)
    rw [List.map_map] at part
    exact distinct.sublist part
  have sorted : sortRanked ((scoredOf policy resolver candidates).map (rankedOf policy resolver)) =
      sortRanked ((scoredOf policy resolver permuted).map (rankedOf policy resolver)) := by
    have ordered := @inOrder_eq_of_perm policy resolver _ _ (same.filterMap _) scores
    rw [sortRanked_rankedOf, sortRanked_rankedOf]
    exact congrArg (List.map (rankedOf policy resolver)) ordered
  obtain ⟨last, keeps, lasts⟩ := decideSurvivors_candidates policy
    (sortRanked ((scoredOf policy resolver permuted).map (rankedOf policy resolver)))
  have each' : ∀ candidate ∈ permuted, Settles policy resolver candidate :=
    fun candidate listed => each candidate (same.mem_iff.mpr listed)
  have nodup : ((candidates.filterMap (verdictOf policy resolver)).map (·.candidateId)).Nodup := by
    rw [verdictOf_ids each]
    exact distinct
  have nodup' : ((permuted.filterMap (verdictOf policy resolver)).map (·.candidateId)).Nodup := by
    rw [verdictOf_ids each']
    exact (same.map _).nodup_iff.mp distinct
  have own := lasts header (declaredReasons policy header) _ _ sorted nodup
  have also := lasts header' (declaredReasons policy header') _ _ rfl nodup'
  have outcome : (decideSurvivors policy header (declaredReasons policy header)
      (candidates.filterMap (verdictOf policy resolver))
      ((scoredOf policy resolver candidates).map (rankedOf policy resolver))).outcome =
      (decideSurvivors policy header' (declaredReasons policy header')
        (permuted.filterMap (verdictOf policy resolver))
        ((scoredOf policy resolver permuted).map (rankedOf policy resolver))).outcome := by
    simp [decideSurvivors, finish, sorted]
  have verdicts := (same.filterMap (verdictOf policy resolver)).map last
  simp only [decideAssessed]
  refine ⟨congrArg SelectionOutcome.isUnknown outcome, fun _ => outcome, ?_, ?_, fun _ => ?_⟩
  · simp [decideSurvivors, finish, sorted]
  · rw [own, also]
    intro verdict listed other listed' sameId
    refine inj_on_of_nodup_map ?_ listed (verdicts.mem_iff.mpr listed') sameId
    rw [List.map_map, Function.comp_def]
    simpa only [keeps] using nodup
  · rw [own, also]
    exact verdicts

lemma sameDecision_aborted (same : candidates.Perm permuted)
    (distinct : (candidates.map (·.candidateId)).Nodup)
    {verdicts verdicts'} {reason reason' : Abort}
    (answer : assessAll policy resolver candidates = .ok (.aborted verdicts reason))
    (answer' : assessAll policy resolver permuted = .ok (.aborted verdicts' reason'))
    (header header' : DecisionHeader) :
    SameDecision (decideAssessed policy header (.aborted verdicts reason))
      (decideAssessed policy header' (.aborted verdicts' reason')) := by
  refine ⟨rfl, nofun, rfl, ?_, nofun⟩
  intro own listed also listed' sameId
  obtain ⟨candidate, inside, assessment, answered, rfl⟩ := assessAll_verdicts answer own listed
  obtain ⟨candidate', inside', assessment', answered', rfl⟩ :=
    assessAll_verdicts answer' also listed'
  -- Distinct identifiers make the two one candidate, which has one assessment.
  obtain rfl : candidate = candidate' := by
    refine inj_on_of_nodup_map distinct inside (same.mem_iff.mpr inside') ?_
    exact (assess_candidateId answered).symm.trans (sameId.trans (assess_candidateId answered'))
  rw [Except.ok.inj (answered.symm.trans answered')]

variable (policy tables candidates facts nowUnixMs) in
/-- The score of one of the candidates does not fit 64 bits. -/
def Overflows (error : SelectionError) : Prop :=
  error.code = .arithmeticOverflow ∧ ∃ lists, readLists policy facts nowUnixMs = .ok lists ∧
    ∃ candidate ∈ candidates,
      assess policy candidate (.new policy facts lists tables nowUnixMs) = .error error

/-- Another order of the candidates gives the same decision, or reports that a score overflows
where this order met something unknown first. -/
theorem evaluate_perm (same : candidates.Perm permuted)
    (answer : evaluateWithTables digests policy tables candidates facts nowUnixMs = .ok decision) :
    (∃ other, evaluateWithTables digests policy tables permuted facts nowUnixMs = .ok other ∧
      SameDecision decision other) ∨
    (decision.outcome.isUnknown = true ∧
      ∃ error, evaluateWithTables digests policy tables permuted facts nowUnixMs = .error error ∧
        Overflows policy tables candidates facts nowUnixMs error) := by
  obtain ⟨policySha256, admitted, cases⟩ := evaluate_cases answer
  rw [(admitted.perm same).evaluate]
  rcases cases with ⟨unreadable, unread, rfl⟩ | ⟨lists, assessed, read, all, rfl⟩
  · rw [unread]
    exact Or.inl ⟨_, rfl, rfl, fun _ => rfl, rfl, nofun, fun _ => .refl _⟩
  rw [read]
  simp only
  cases assessed with
  | settled verdicts survivors =>
    have each := settles_of_assessAll all
    have each' : ∀ candidate ∈ permuted,
        Settles policy (.new policy facts lists tables nowUnixMs) candidate :=
      fun candidate listed => each candidate (same.mem_iff.mpr listed)
    obtain ⟨rfl, rfl⟩ := AssessedSet.settled.inj
      (Except.ok.inj (all.symm.trans (assessAll_settled each)))
    rw [assessAll_settled each']
    exact Or.inl ⟨_, rfl, sameDecision_survivors same admitted.nodup each _ _⟩
  | aborted verdicts reason =>
    cases all' : assessAll policy (.new policy facts lists tables nowUnixMs) permuted with
    | error error =>
      obtain ⟨candidate, listed, overflow⟩ := assessAll_error all'
      exact Or.inr ⟨rfl, error, rfl, assess_error overflow, lists, read, candidate,
        same.mem_iff.mpr listed, overflow⟩
    | ok assessed =>
      cases assessed with
      | aborted verdicts' reason' =>
        exact Or.inl ⟨_, rfl, sameDecision_aborted same admitted.nodup all all' _ _⟩
      | settled verdicts' survivors' =>
        have each' := settles_of_assessAll all'
        have settled := @assessAll_settled policy (.new policy facts lists tables nowUnixMs)
          candidates fun candidate listed => each' candidate (same.mem_iff.mp listed)
        rw [settled] at all
        cases all

/-- Every order of the candidates gives one outcome kind, one selection and one verdict for each
candidate, and reports every candidate unless it ends early, or gives no answer at all; only a
score that overflows beside a candidate that ends the evaluation is reported in one order and not
in the other. -/
theorem order_independent (same : candidates.Perm permuted) :
    (match evaluateWithTables digests policy tables candidates facts nowUnixMs,
        evaluateWithTables digests policy tables permuted facts nowUnixMs with
      | .ok decision, .ok other => SameDecision decision other ∧
        (decision.outcome.isUnknown = false →
          decision.candidates.map (·.candidateId) = candidates.map (·.candidateId) ∧
            other.candidates.map (·.candidateId) = permuted.map (·.candidateId))
      | .ok decision, .error error | .error error, .ok decision =>
        decision.outcome.isUnknown = true ∧ Overflows policy tables candidates facts nowUnixMs error
      | .error _, .error _ => True) ∧
    ∀ lists, readLists policy facts nowUnixMs = .ok lists →
      (∃ candidate ∈ candidates, ∃ verdict reason,
        assess policy candidate (.new policy facts lists tables nowUnixMs) =
          .ok (.aborted verdict reason)) →
      ∀ decision, evaluateWithTables digests policy tables candidates facts nowUnixMs =
          .ok decision ∨
        evaluateWithTables digests policy tables permuted facts nowUnixMs = .ok decision →
        decision.outcome.isUnknown = true := by
  constructor
  · cases left : evaluateWithTables digests policy tables candidates facts nowUnixMs with
    | ok decision =>
      rcases evaluate_perm same left with ⟨other, right, alike⟩ | ⟨unknown, error, right, overflows⟩
      · rw [right]
        exact ⟨alike, fun known =>
          ⟨evaluate_ids left known, evaluate_ids right (alike.unknown ▸ known)⟩⟩
      · rw [right]
        exact ⟨unknown, overflows⟩
    | error error =>
      cases right : evaluateWithTables digests policy tables permuted facts nowUnixMs with
      | error error' => trivial
      | ok decision =>
        rcases evaluate_perm same.symm right with ⟨other, again, -⟩ | ⟨unknown, error', again, code,
          lists, read, candidate, listed, overflow⟩
        · rw [left] at again
          cases again
        · obtain rfl : error = error' := Except.error.inj (left.symm.trans again)
          exact ⟨unknown, code, lists, read, candidate, same.mem_iff.mpr listed, overflow⟩
  · rintro lists read ⟨candidate, listed, verdict, reason, aborts⟩ decision answer
    -- A candidate that ends the evaluation leaves no order with a known outcome.
    have ends {some} (listed : candidate ∈ some)
        (answer : evaluateWithTables digests policy tables some facts nowUnixMs = .ok decision) :
        decision.outcome.isUnknown = true := by
      by_contra known
      obtain ⟨lists', ready, each⟩ := ready_of_evaluate answer (by simpa using known)
      obtain rfl : lists' = lists := Except.ok.inj (ready.lists.symm.trans read)
      obtain ⟨verdict', ranked, settled⟩ := (each candidate listed).1
      rw [settled] at aborts
      cases aborts
    exact answer.elim (ends listed) (ends (same.mem_iff.mp listed))

end Evaluation

namespace Sample

/-- The levels count two thousandfold, and an unknown level ends the evaluation. -/
def strictPolicy : SelectionPolicy :=
  { agePolicy with
    scoring := [⟨"term-level", .field "level", .identity, 2000000, .abortEvaluation⟩] }

def strictDecision (candidates : List Candidate) : Except SelectionError SelectionDecision :=
  evaluateWithTables ageDigests strictPolicy ⟨∅⟩ candidates ⟨"snapshot-none", 0, ∅⟩ 0

def levelless : Candidate := ⟨"age#03", ∅⟩

/-- The largest level that an input may carry: its score needs more than 64 bits. -/
def outsized : Candidate := aged "age#04" 9007199254740991 none

/-- A level that is unknown ends the evaluation before the score that overflows is reached, and
after it; and the candidates behind the one that ends the evaluation have no verdict. -/
theorem order_reports_overflow :
    (∃ decision error, strictDecision [levelless, outsized] = .ok decision ∧
      decision.outcome.isUnknown = true ∧ strictDecision [outsized, levelless] = .error error ∧
      error.code = .arithmeticOverflow) ∧
    ∃ decision other, strictDecision [levelless, aged "age#01" 5 none] = .ok decision ∧
      strictDecision [aged "age#01" 5 none, levelless] = .ok other ∧
      decision.candidates.map (·.candidateId) = ["age#03"] ∧
      other.candidates.map (·.candidateId) = ["age#01", "age#03"] :=
  ⟨⟨_, _, rfl, rfl, rfl, rfl⟩, _, _, rfl, rfl, rfl, rfl⟩

lemma agedDecision_swapped :
    ∃ decision other, agedDecision [aged "age#00" 5 none, aged "age#01" 5 (some 2)] = .ok decision ∧
      agedDecision [aged "age#01" 5 (some 2), aged "age#00" 5 none] = .ok other ∧
      decision.selected = ["age#01"] ∧ decision.outcome.isUnknown = false :=
  ⟨_, _, rfl, rfl, rfl, rfl⟩

/-- Two candidates in either order. -/
theorem order_independent_swapped :
    ∃ decision other, agedDecision [aged "age#00" 5 none, aged "age#01" 5 (some 2)] = .ok decision ∧
      agedDecision [aged "age#01" 5 (some 2), aged "age#00" 5 none] = .ok other ∧
      decision.selected = ["age#01"] ∧ SameDecision decision other ∧
      other.candidates.map (·.candidateId) = ["age#01", "age#00"] := by
  obtain ⟨decision, other, answer, answer', selected, known⟩ := agedDecision_swapped
  have both := (@order_independent ageDigests agePolicy ⟨∅⟩ _ _ ⟨"snapshot-none", 0, ∅⟩ 0
    (List.Perm.swap (aged "age#01" 5 (some 2)) (aged "age#00" 5 none) [])).1
  rw [agedDecision] at answer answer'
  rw [answer, answer'] at both
  exact ⟨decision, other, answer, answer', selected, both.1, (both.2 known).2⟩

end Sample

end Selection
