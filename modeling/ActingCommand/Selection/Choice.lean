import ActingCommand.Selection.Batch

/-!
# The choice

An evaluation that selects names as many candidates as the document asks for, and each of
them comes before every survivor it leaves out in the declared order: the score, then the
declared keys. The identifier only lists the survivors; where the declared order does not
settle who is in and who is out, the evaluation is ambiguous.
-/

namespace Selection

open Std SortKeys List Option Except

/-! ## The declared order -/

/-- Two scored candidates under a declared key: known values in its direction, unknown last. -/
def declaredKey (resolver : Resolver) (key : TieBreakKey) (left right : Scored) : Ordering :=
  unknownLast key.direction.cmp (tieBreakValue left.1 resolver key).1
    (tieBreakValue right.1 resolver key).1

/-- Higher scores first, then the declared keys in order, and nothing else. -/
def declaredOrder (policy : SelectionPolicy) (resolver : Resolver) : Scored → Scored → Ordering :=
  lexKeys (scoreOrder :: policy.tieBreak.map (declaredKey resolver))

section Order

variable {policy : SelectionPolicy} {resolver : Resolver}

lemma declaredKey_eq (key : TieBreakKey) : declaredKey resolver key = keyOrder resolver key := by
  funext left right
  exact (keyOrder_eq key left right).symm

lemma declaredOrder_eq : declaredOrder policy resolver =
    lexKeys (scoreOrder :: policy.tieBreak.map (keyOrder resolver)) := by
  rw [declaredOrder, funext declaredKey_eq]

instance : TransCmp (declaredOrder policy resolver) := by
  rw [declaredOrder_eq]
  refine lexKeys_trans fun cmp listed => ?_
  rcases mem_cons.mp listed with rfl | listed
  · infer_instance
  · obtain ⟨key, -, rfl⟩ := List.mem_map.mp listed
    infer_instance

/-- The ranking refines the declared order. -/
theorem isLE_of_rankOrder {left right : Scored}
    (before : (rankOrder policy resolver left right).isLE = true) :
    (declaredOrder policy resolver left right).isLE = true := by
  rw [rankOrder, lexKeys_append, ← declaredOrder_eq] at before
  cases order : declaredOrder policy resolver left right with
  | lt => rfl
  | eq => rfl
  | gt =>
    simp [order] at before

lemma tied_iff {left right : Scored} :
    tied (rankedOf policy resolver left) (rankedOf policy resolver right) = true ↔
      declaredOrder policy resolver left right = .eq := by
  simp only [tied, rankedOf, compareKeys, compareKeyLists_eq, Bool.and_eq_true,
    decide_eq_true_eq, declaredOrder_eq, lexKeys, Ordering.then_eq_eq, scoreOrder,
    Std.compare_eq_iff_eq]
  exact and_congr_left' (decide_eq_true_iff.trans eq_comm)

end Order

/-! ## The cut -/

section Cut

variable {policy : SelectionPolicy} {resolver : Resolver} {ordered : List Scored}
  {requested : Nat}

lemma cutTie_rankedOf :
    (cutTie (ordered.map (rankedOf policy resolver)) requested).isSome = true ↔
      ∃ last next, ordered[requested - 1]? = some last ∧ ordered[requested]? = some next ∧
        declaredOrder policy resolver last next = .eq := by
  simp only [cutTie, getElem?_map]
  cases ordered[requested - 1]? with
  | none => simp
  | some last =>
    cases ordered[requested]? with
    | none => simp
    | some next =>
      simp only [map_some, some.injEq, exists_and_left, exists_eq_left', ← tied_iff]
      split <;> simp_all

lemma outcomeOf_selected_iff {survivors : List Ranked} {count : Nat} :
    outcomeOf survivors requested = .selected count ↔
      count = requested ∧ 0 < requested ∧ requested ≤ survivors.length ∧
        (cutTie survivors requested).isSome = false := by
  unfold outcomeOf
  split
  · simp only [reduceCtorEq, false_iff]
    omega
  split
  · simp only [reduceCtorEq, false_iff]
    omega
  cases cutTie survivors requested with
  | none =>
    simp only [SelectionOutcome.selected.injEq, isSome_none, and_true]
    omega
  | some pair => simp

lemma outcomeOf_ambiguous_iff {survivors : List Ranked} :
    (∃ candidateIds, outcomeOf survivors requested = .ambiguous candidateIds) ↔
      0 < requested ∧ (cutTie survivors requested).isSome = true := by
  unfold outcomeOf
  split
  · rename_i beyond
    have none : survivors[requested]? = none := by
      rw [List.getElem?_eq_none_iff]
      omega
    simp [cutTie, none]
  split
  · simp only [reduceCtorEq, exists_false, false_iff]
    omega
  cases cutTie survivors requested with
  | none => simp
  | some pair =>
    simp only [SelectionOutcome.ambiguous.injEq, exists_eq', isSome_some, and_true, true_iff]
    omega

lemma straddles_iff_cutTie
    (sorted : ordered.Pairwise fun left right =>
      (rankOrder policy resolver left right).isLE = true) :
    Straddles (declaredOrder policy resolver) ordered requested ↔
      0 < requested ∧
        (cutTie (ordered.map (rankedOf policy resolver)) requested).isSome = true := by
  rw [cutTie_rankedOf]
  have declared := sorted.imp isLE_of_rankOrder
  have whole : Straddles (declaredOrder policy resolver) ordered requested ↔
      Straddles (declaredOrder policy resolver)
        (ordered.take requested ++ ordered.drop requested) requested := by
    rw [take_append_drop]
  constructor
  · intro straddles
    obtain ⟨positive, inside⟩ := straddles.bounds
    have lastAt : ordered[requested - 1]? = some ordered[requested - 1] :=
      getElem?_eq_getElem (by omega)
    have nextAt : ordered[requested]? = some ordered[requested] := getElem?_eq_getElem inside
    have cut := cut_of_pairwise declared positive lastAt nextAt
    have length : (ordered.take requested).length = requested := by
      rw [length_take]
      omega
    refine ⟨positive, _, _, lastAt, nextAt, cut.straddles_iff.mp ?_⟩
    rw [length, ← whole]
    exact straddles
  · rintro ⟨positive, last, next, lastAt, nextAt, level⟩
    have cut := cut_of_pairwise declared positive lastAt nextAt
    have inside := (List.getElem?_eq_some_iff.mp nextAt).1
    have length : (ordered.take requested).length = requested := by
      rw [length_take]
      omega
    have straddles := cut.straddles_iff.mpr level
    rw [length, ← whole] at straddles
    exact straddles

/-- Without a tie at the cut, what is before it precedes what is behind it. -/
theorem before_of_untied
    (sorted : ordered.Pairwise fun left right =>
      (rankOrder policy resolver left right).isLE = true)
    (positive : 0 < requested)
    (untied : (cutTie (ordered.map (rankedOf policy resolver)) requested).isSome = false)
    {chosen other : Scored} (inside : chosen ∈ ordered.take requested)
    (outside : other ∈ ordered.drop requested) :
    declaredOrder policy resolver chosen other = .lt := by
  have bound : requested < ordered.length := by
    have nonempty := length_pos_of_mem outside
    rw [length_drop] at nonempty
    omega
  have lastAt : ordered[requested - 1]? = some ordered[requested - 1] :=
    getElem?_eq_getElem (by omega)
  have nextAt : ordered[requested]? = some ordered[requested] := getElem?_eq_getElem bound
  have cut := cut_of_pairwise (sorted.imp isLE_of_rankOrder) positive lastAt nextAt
  refine cut.lt_of_lt ?_ inside outside
  refine (Ordering.isLE_iff_eq_lt_or_eq_eq.mp cut.across).resolve_right fun level => ?_
  rw [cutTie_rankedOf.mpr ⟨_, _, lastAt, nextAt, level⟩] at untied
  cases untied

end Cut

/-! ## The survivors that are chosen -/

/-- The selection names as many different survivors as the document asks for, each of them
before every survivor that is left out. -/
structure Chosen (policy : SelectionPolicy) (resolver : Resolver) (survivors : List Scored)
    (count : Nat) (selected : List String) : Prop where
  requested : count = requestedCount policy.selection survivors.length
  length : selected.length = count
  distinct : selected.Nodup
  survive : ∀ candidateId ∈ selected, ∃ entry ∈ survivors, entry.1.candidateId = candidateId
  beats : ∀ chosen ∈ survivors, chosen.1.candidateId ∈ selected →
    ∀ other ∈ survivors, other.1.candidateId ∉ selected →
      declaredOrder policy resolver chosen other = .lt

section Survivors

variable {policy : SelectionPolicy} {resolver : Resolver} {header : DecisionHeader}
  {reasons : List DecisionReason} {verdicts : List CandidateVerdict} {survivors : List Scored}

variable (policy resolver survivors) in
/-- The survivors in the order of their ranks. -/
def inOrder :
    List Scored :=
  survivors.insertionSort fun left right => (rankOrder policy resolver left right).isLE = true

lemma inOrder_perm : (inOrder policy resolver survivors).Perm survivors :=
  perm_insertionSort _ _

lemma inOrder_pairwise : (inOrder policy resolver survivors).Pairwise fun left right =>
    (rankOrder policy resolver left right).isLE = true :=
  pairwise_insertionSort _ _

lemma decideSurvivors_outcome :
    (decideSurvivors policy header reasons verdicts
        (survivors.map (rankedOf policy resolver))).outcome =
      outcomeOf ((inOrder policy resolver survivors).map (rankedOf policy resolver))
        (requestedCount policy.selection survivors.length) := by
  have length : (sortRanked (survivors.map (rankedOf policy resolver))).length =
      survivors.length := by
    rw [sortRanked, length_insertionSort, length_map]
  simp only [decideSurvivors, finish, length]
  rw [sortRanked_rankedOf, inOrder]

lemma decideSurvivors_chosen {count : Nat} (distinct : (survivors.map (·.1.candidateId)).Nodup)
    (selected : (decideSurvivors policy header reasons verdicts
      (survivors.map (rankedOf policy resolver))).outcome = .selected count) :
    Chosen policy resolver survivors count (decideSurvivors policy header reasons verdicts
      (survivors.map (rankedOf policy resolver))).selected := by
  have taken : (decideSurvivors policy header reasons verdicts
      (survivors.map (rankedOf policy resolver))).selected =
        ((inOrder policy resolver survivors).take count).map (·.1.candidateId) := by
    simp only [decideSurvivors, finish] at selected ⊢
    rw [selected, selectedOf, sortRanked_rankedOf, ← map_take, List.map_map]
    rfl
  rw [taken]
  rw [decideSurvivors_outcome, outcomeOf_selected_iff] at selected
  obtain ⟨count_eq, positive, enough, untied⟩ := selected
  rw [← count_eq] at positive enough untied
  have sorted := @inOrder_pairwise policy resolver survivors
  have same := @inOrder_perm policy resolver survivors
  generalize inOrder policy resolver survivors = ordered at sorted same enough untied ⊢
  have nodup : (ordered.map (·.1.candidateId)).Nodup := (same.map _).nodup_iff.mpr distinct
  have inFront {entry : Scored} (listed : entry ∈ ordered)
      (named : entry.1.candidateId ∈ (ordered.take count).map (·.1.candidateId)) :
      entry ∈ ordered.take count := by
    obtain ⟨other, front, sameId⟩ := List.mem_map.mp named
    obtain rfl : other = entry :=
      inj_on_of_nodup_map nodup (mem_of_mem_take front) listed sameId
    exact front
  refine ⟨count_eq, ?_, ?_, ?_, ?_⟩
  · rw [length_map] at enough
    rw [length_map, length_take]
    omega
  · exact nodup.sublist ((take_sublist _ _).map _)
  · intro candidateId named
    obtain ⟨entry, front, rfl⟩ := List.mem_map.mp named
    exact ⟨entry, same.mem_iff.mp (mem_of_mem_take front), rfl⟩
  intro chosen listed named other listed' apart
  refine before_of_untied sorted positive untied (inFront (same.mem_iff.mpr listed) named) ?_
  have either : other ∈ ordered.take count ++ ordered.drop count := by
    rw [take_append_drop]
    exact same.mem_iff.mpr listed'
  rcases mem_append.mp either with front | back
  · exact absurd (List.mem_map_of_mem front) apart
  · exact back

lemma decideSurvivors_ambiguous_iff :
    (∃ candidateIds, (decideSurvivors policy header reasons verdicts
        (survivors.map (rankedOf policy resolver))).outcome = .ambiguous candidateIds) ↔
      Straddles (declaredOrder policy resolver) survivors
        (requestedCount policy.selection survivors.length) := by
  rw [decideSurvivors_outcome, outcomeOf_ambiguous_iff, ← straddles_iff_cutTie inOrder_pairwise]
  exact straddles_perm inOrder_perm

end Survivors

/-! ## Evaluations -/

/-- The candidates that survive an evaluation, with their scores: every declared list is read,
and no candidate ends the evaluation. -/
structure Survive (policy : SelectionPolicy) (tables : SelectionTables)
    (candidates : List Candidate) (facts : SelectionFactSnapshot) (nowUnixMs : Nat)
    (resolver : Resolver) (survivors : List Scored) : Prop where
  reads : ∃ lists, readLists policy facts nowUnixMs = .ok lists ∧
    resolver = .new policy facts lists tables nowUnixMs
  settle : ∀ candidate ∈ candidates, Settles policy resolver candidate
  scored : survivors = scoredOf policy resolver candidates

section Evaluation

variable {digests : Digests} {policy : SelectionPolicy} {tables : SelectionTables}
  {candidates : List Candidate} {facts : SelectionFactSnapshot} {nowUnixMs : Nat}
  {decision : SelectionDecision} {resolver : Resolver} {survivors : List Scored}

variable (policy resolver) in
lemma scoredOf_sublist
    (candidates : List Candidate) :
    ((scoredOf policy resolver candidates).map (·.1)).Sublist candidates := by
  induction candidates with
  | nil => exact .slnil
  | cons candidate rest ih =>
    simp only [scoredOf, filterMap_cons]
    cases scoreOf policy resolver candidate with
    | none => exact ih.cons candidate
    | some scoreMilli => exact ih.cons_cons candidate

lemma Survive.nodup (survive : Survive policy tables candidates facts nowUnixMs resolver survivors)
    (distinct : (candidates.map (·.candidateId)).Nodup) :
    (survivors.map (·.1.candidateId)).Nodup := by
  rw [survive.scored]
  have part := (scoredOf_sublist policy resolver candidates).map (·.candidateId)
  rw [List.map_map] at part
  exact distinct.sublist part

/-- An evaluation with survivors decides over them. -/
theorem decision_eq_of_survive
    (answer : evaluateWithTables digests policy tables candidates facts nowUnixMs = .ok decision)
    (survive : Survive policy tables candidates facts nowUnixMs resolver survivors) :
    ∃ header verdicts, decision = decideSurvivors policy header (declaredReasons policy header)
      verdicts (survivors.map (rankedOf policy resolver)) := by
  obtain ⟨⟨lists, read, rfl⟩, settle, rfl⟩ := survive
  obtain ⟨_, -, cases⟩ := evaluate_cases answer
  rcases cases with ⟨_, unread, -⟩ | ⟨lists', assessed, read', all, rfl⟩
  · rw [read] at unread
    cases unread
  obtain rfl : lists' = lists := ok.inj (read'.symm.trans read)
  obtain rfl := ok.inj (all.symm.trans (assessAll_settled settle))
  exact ⟨_, _, rfl⟩

lemma survive_of_known
    (answer : evaluateWithTables digests policy tables candidates facts nowUnixMs = .ok decision)
    (known : decision.outcome.isUnknown = false) :
    ∃ resolver survivors, Survive policy tables candidates facts nowUnixMs resolver survivors := by
  obtain ⟨lists, ready, each⟩ := ready_of_evaluate answer known
  exact ⟨_, _, ⟨lists, ready.lists, rfl⟩, fun candidate inside => (each candidate inside).1, rfl⟩

/-- A selection names the requested number of survivors, each strictly before every survivor it
leaves out in the declared order; the outcome is ambiguous exactly when survivors that the
declared order does not separate stand on both sides of the cut. -/
theorem selection_correct
    (answer : evaluateWithTables digests policy tables candidates facts nowUnixMs = .ok decision) :
    (∀ count, decision.outcome = .selected count →
      ∃ resolver survivors, Survive policy tables candidates facts nowUnixMs resolver survivors ∧
        Chosen policy resolver survivors count decision.selected) ∧
    ((∃ candidateIds, decision.outcome = .ambiguous candidateIds) ↔
      ∃ resolver survivors, Survive policy tables candidates facts nowUnixMs resolver survivors ∧
        Straddles (declaredOrder policy resolver) survivors
          (requestedCount policy.selection survivors.length)) := by
  obtain ⟨_, admitted⟩ := admitted_of_evaluate answer
  refine ⟨?_, ?_, ?_⟩
  · intro count selected
    obtain ⟨resolver, survivors, survive⟩ :=
      survive_of_known answer (by rw [selected]; rfl)
    obtain ⟨header, verdicts, rfl⟩ := decision_eq_of_survive answer survive
    exact ⟨resolver, survivors, survive,
      decideSurvivors_chosen (survive.nodup admitted.nodup) selected⟩
  · rintro ⟨candidateIds, ambiguous⟩
    obtain ⟨resolver, survivors, survive⟩ :=
      survive_of_known answer (by rw [ambiguous]; rfl)
    obtain ⟨header, verdicts, rfl⟩ := decision_eq_of_survive answer survive
    exact ⟨resolver, survivors, survive,
      decideSurvivors_ambiguous_iff.mp ⟨candidateIds, ambiguous⟩⟩
  · rintro ⟨resolver, survivors, survive, straddles⟩
    obtain ⟨header, verdicts, rfl⟩ := decision_eq_of_survive answer survive
    exact decideSurvivors_ambiguous_iff.mpr straddles

end Evaluation

namespace Sample

/-- One candidate by its level, the oldest first among equals. -/
def agePolicy : SelectionPolicy where
  schemaVersion := selectionPolicySchemaVersion
  policyId := "policy-age"
  appliesTo := ⟨"layout-age", ⟨"selected", "empty", "insufficient", "ambiguous", "unknown"⟩⟩
  fields := [⟨"age", .integer⟩, ⟨"level", .integer⟩]
  facts := []
  tables := []
  gates := []
  scoring := [⟨"term-level", .field "level", .identity, 1000, .dropCandidate⟩]
  selection := ⟨.topK, 1⟩
  tieBreak := [.value (.field "age") .highestFirst]

def aged (candidateId : String) (level : Int) (age : Option Int) : Candidate where
  candidateId := candidateId
  fields := .ofList (("level", ScalarValue.integer level) ::
    (age.map fun years => ("age", ScalarValue.integer years)).toList)

def ageDigests : Digests := ⟨fun _ => .ok "sha256:age", fun _ => "sha256:aged"⟩

def agedDecision (candidates : List Candidate) : Except SelectionError SelectionDecision :=
  evaluateWithTables ageDigests agePolicy ⟨∅⟩ candidates ⟨"snapshot-none", 0, ∅⟩ 0

lemma agedDecision_selected :
    ∃ decision, agedDecision
        [aged "age#00" 5 none, aged "age#01" 5 (some 2), aged "age#02" 3 (some 9)] = .ok decision ∧
      decision.outcome = .selected 1 ∧ decision.selected = ["age#01"] :=
  ⟨_, rfl, rfl, rfl⟩

lemma agedDecision_ambiguous :
    ∃ decision, agedDecision
        [aged "age#00" 5 none, aged "age#01" 5 none, aged "age#02" 3 (some 9)] = .ok decision ∧
      decision.outcome = .ambiguous ["age#00", "age#01"] :=
  ⟨_, rfl, rfl⟩

/-- Of two equal scores the known age comes first, whatever the listing; two unknown ages leave
the cut ambiguous, although the identifiers differ. -/
theorem selection_correct_unknown_last :
    (∃ decision resolver survivors, agedDecision
        [aged "age#00" 5 none, aged "age#01" 5 (some 2), aged "age#02" 3 (some 9)] = .ok decision ∧
      decision.selected = ["age#01"] ∧
      Chosen agePolicy resolver survivors 1 decision.selected) ∧
    ∃ decision resolver survivors, agedDecision
        [aged "age#00" 5 none, aged "age#01" 5 none, aged "age#02" 3 (some 9)] = .ok decision ∧
      decision.outcome = .ambiguous ["age#00", "age#01"] ∧
      Straddles (declaredOrder agePolicy resolver) survivors
        (requestedCount agePolicy.selection survivors.length) := by
  obtain ⟨decision, answer, outcome, selected⟩ := agedDecision_selected
  obtain ⟨decision', answer', outcome'⟩ := agedDecision_ambiguous
  obtain ⟨resolver, survivors, -, chosen⟩ := (selection_correct answer).1 1 outcome
  obtain ⟨resolver', survivors', -, straddles⟩ := (selection_correct answer').2.mp ⟨_, outcome'⟩
  exact ⟨⟨decision, resolver, survivors, answer, selected, chosen⟩,
    decision', resolver', survivors', answer', outcome', straddles⟩

end Sample

end Selection
