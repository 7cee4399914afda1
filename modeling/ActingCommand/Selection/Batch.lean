import ActingCommand.Selection.Ranking
import ActingCommand.Selection.Verdict

/-!
# One candidate at a time

Neither its identifier nor the candidates beside it change a candidate's status or score. A list
whose candidates each passed some evaluation under the same document, tables, facts and instant
is therefore evaluated without an abort, and its survivors are the candidates that ranked.
-/

namespace Selection

open Machine List Option Except Prod

variable {verdict : CandidateVerdict}

/-! ## The identifier does not matter -/

section Renamed

variable {resolver : Resolver} {candidate renamed : Candidate}

lemma readNoting_renamed (same : renamed.fields = candidate.fields) (reference : ValueRef)
    (reads : Reads) :
    resolver.readNoting reference renamed reads =
      resolver.readNoting reference candidate reads := by
  obtain ⟨id, fields⟩ := candidate
  obtain ⟨id', fields'⟩ := renamed
  obtain rfl : fields' = fields := same
  rfl

def CandidateVerdict.rename (verdict : CandidateVerdict) (candidateId : String) :
    CandidateVerdict :=
  { verdict with candidateId := candidateId }

/-- The rule left the renamed verdict as it left the verdict; only an abort names the candidate. -/
inductive RuleStep.Renames (candidateId : String) : RuleStep → RuleStep → Prop
  | kept (verdict : CandidateVerdict) :
    Renames candidateId (.kept verdict) (.kept (verdict.rename candidateId))
  | settled (verdict : CandidateVerdict) :
    Renames candidateId (.settled verdict) (.settled (verdict.rename candidateId))
  | aborted (verdict other : CandidateVerdict) (reason also : Abort) :
    Renames candidateId (.aborted verdict reason) (.aborted other also)

section

variable (same : renamed.fields = candidate.fields)

include same

lemma assessGates_renames (gates : List HardGate) (verdict : CandidateVerdict) :
    RuleStep.Renames renamed.candidateId (assessGates candidate resolver gates verdict)
      (assessGates renamed resolver gates (verdict.rename renamed.candidateId)) := by
  induction gates generalizing verdict with
  | nil => exact .kept _
  | cons gate rest ih =>
    have step : RuleStep.Renames renamed.candidateId (assessGate candidate resolver gate verdict)
        (assessGate renamed resolver gate (verdict.rename renamed.candidateId)) := by
      simp only [assessGate, truth_alike gate.predicate
        ⟨fun reference _ => readNoting_renamed same reference, fun _ => rfl⟩]
      generalize gateOutcome _ _ = outcome
      rcases outcome with reason | ⟨outcome, _ | _⟩
      · exact .aborted _ _ _ _
      · cases outcome <;> exact .settled _
      · exact .kept _
    simp only [assessGates]
    generalize assessGate candidate resolver gate verdict = before at step
    generalize assessGate renamed resolver gate (verdict.rename renamed.candidateId) = after
      at step
    cases step with
    | kept noted => exact ih noted
    | settled last => exact .settled last
    | aborted last other reason also => exact .aborted _ _ _ _

/-- What the terms answer for a candidate they answer for the renamed one. -/
theorem assessTerm_renames {term step} {contributionMilli : Int}
    (answer : assessTerm candidate resolver term verdict = .ok (step, contributionMilli)) :
    ∃ other, assessTerm renamed resolver term (verdict.rename renamed.candidateId) =
      .ok (other, contributionMilli) ∧ step.Renames renamed.candidateId other := by
  simp only [assessTerm, termValue, readNoting_renamed same] at answer ⊢
  generalize termOutcome _ term.onUnknown = outcome at answer ⊢
  rcases outcome with reason | ⟨outcome, _ | transformedMilli⟩
  · simp only [applyTerm, pure_ok_iff, mk.injEq] at answer ⊢
    obtain ⟨rfl, rfl⟩ := answer
    exact ⟨_, ⟨rfl, rfl⟩, .aborted _ _ _ _⟩
  · simp only [applyTerm, pure_ok_iff, mk.injEq] at answer ⊢
    obtain ⟨rfl, rfl⟩ := answer
    exact ⟨_, ⟨rfl, rfl⟩, .settled _⟩
  simp only [applyTerm, bind_ok_iff, okOr_ok_iff, pure_ok_iff, mk.injEq] at answer ⊢
  obtain ⟨narrowed, fits, rfl, rfl⟩ := answer
  exact ⟨_, ⟨narrowed, fits, rfl, rfl⟩, .kept _⟩

lemma assessTerms_renames {terms} {total last : Int} {step}
    (answer : assessTerms candidate resolver terms total verdict = .ok (step, last)) :
    ∃ other, assessTerms renamed resolver terms total (verdict.rename renamed.candidateId) =
      .ok (other, last) ∧ step.Renames renamed.candidateId other := by
  induction terms generalizing total verdict with
  | nil =>
    simp only [assessTerms, pure_ok_iff, mk.injEq] at answer
    obtain ⟨rfl, rfl⟩ := answer
    exact ⟨_, rfl, .kept verdict⟩
  | cons term rest ih =>
    simp only [assessTerms, bind_ok_iff] at answer ⊢
    obtain ⟨⟨first, x⟩, scored, answer⟩ := answer
    obtain ⟨other, also, renames⟩ := assessTerm_renames same scored
    cases renames with
    | kept noted =>
      obtain ⟨final, ended, stays⟩ := ih answer
      exact ⟨final, ⟨_, also, ended⟩, stays⟩
    | settled last =>
      cases answer
      exact ⟨_, ⟨_, also, rfl⟩, .settled last⟩
    | aborted last other reason more =>
      cases answer
      exact ⟨_, ⟨_, also, rfl⟩, .aborted _ _ _ _⟩

/-- The identifier is always known, so no reason about a key names it. -/
theorem tieBreakReasons_renamed (keys : List TieBreakKey) :
    (keys.map (tieBreakValue renamed resolver)).zipIdx.flatMap tieBreakReason =
      (keys.map (tieBreakValue candidate resolver)).zipIdx.flatMap tieBreakReason := by
  simp only [zipIdx_map, flatMap_map]
  refine congrArg List.flatten (map_congr_left fun entry _ => ?_)
  obtain ⟨key, index⟩ := entry
  cases key with
  | candidateId direction => rfl
  | value value direction =>
    simp only [Prod.map_apply, tieBreakValue, ← readNoting_fst value .ignored,
      readNoting_renamed same]

/-- A candidate that settles settles under every identifier, with the same score. -/
theorem assess_renamed {policy ranked}
    (answer : assess policy candidate resolver = .ok (.settled verdict ranked)) :
    assess policy renamed resolver = .ok (.settled (verdict.rename renamed.candidateId)
      (ranked.map fun entry => rankedOf policy resolver (renamed, entry.scoreMilli))) := by
  have gates := @assessGates_renames resolver _ _ same policy.gates
    (freshVerdict candidate.candidateId)
  have fresh : (freshVerdict candidate.candidateId).rename renamed.candidateId =
    freshVerdict renamed.candidateId := rfl
  rw [fresh] at gates
  rw [assess] at answer ⊢
  generalize assessGates candidate resolver policy.gates (freshVerdict candidate.candidateId) =
    before at gates answer
  generalize assessGates renamed resolver policy.gates (freshVerdict renamed.candidateId) =
    after at gates ⊢
  cases gates with
  | aborted last other reason also => simp at answer
  | settled last =>
    cases answer
    rfl
  | kept noted =>
    simp only [bind_ok_iff] at answer ⊢
    obtain ⟨⟨ended, total⟩, scored, answer⟩ := answer
    obtain ⟨other, also, renames⟩ := assessTerms_renames same scored
    refine ⟨_, also, ?_⟩
    cases renames with
    | aborted last other reason also => simp at answer
    | settled last =>
      cases answer
      rfl
    | kept last =>
      simp only [scoreCandidate, bind_ok_iff, okOr_ok_iff, pure_ok_iff,
        Assessment.settled.injEq] at answer ⊢
      obtain ⟨narrowed, fits, rfl, rfl⟩ := answer
      refine ⟨narrowed, fits, ?_, rfl⟩
      rw [tieBreakReasons_renamed same]
      rfl

end

end Renamed

/-! ## The candidates beside it do not matter -/

section

variable (policy : SelectionPolicy) (resolver : Resolver) (candidate : Candidate)

/-- The candidate settles: no rule ends the evaluation at it, and no number overflows. -/
def Settles : Prop :=
  ∃ verdict ranked, assess policy candidate resolver = .ok (.settled verdict ranked)

/-- The score of a candidate that ranks. -/
def scoreOf : Option Int :=
  match assess policy candidate resolver with
  | .ok (.settled _ (some entry)) => some entry.scoreMilli
  | _ => none

def scoredOf (candidates : List Candidate) : List Scored :=
  candidates.filterMap fun candidate =>
    (scoreOf policy resolver candidate).map fun scoreMilli => (candidate, scoreMilli)

/-- The verdict of a candidate whose numbers do not overflow. -/
def verdictOf : Option CandidateVerdict :=
  (assess policy candidate resolver).toOption.map Assessment.verdict

end

section Batch

variable {policy : SelectionPolicy} {resolver : Resolver} {candidates : List Candidate}

lemma mem_scoredOf {candidate} {scoreMilli : Int} :
    (candidate, scoreMilli) ∈ scoredOf policy resolver candidates ↔
      candidate ∈ candidates ∧ scoreOf policy resolver candidate = some scoreMilli := by
  simp only [scoredOf, mem_filterMap, map_eq_some_iff, mk.injEq]
  constructor
  · rintro ⟨_, inside, _, scored, rfl, rfl⟩
    exact ⟨inside, scored⟩
  · rintro ⟨inside, scored⟩
    exact ⟨candidate, inside, scoreMilli, scored, rfl, rfl⟩

lemma scoreOf_renamed {candidate renamed} (settles : Settles policy resolver candidate)
    (same : renamed.fields = candidate.fields) :
    Settles policy resolver renamed ∧
      scoreOf policy resolver renamed = scoreOf policy resolver candidate := by
  obtain ⟨verdict, ranked, answer⟩ := settles
  have also := assess_renamed same answer
  refine ⟨⟨_, _, also⟩, ?_⟩
  rw [scoreOf, scoreOf, also, answer]
  cases ranked <;> rfl

/-- Candidates that settle are assessed one by one; those that rank survive, in order. -/
theorem assessAll_settled (each : ∀ candidate ∈ candidates, Settles policy resolver candidate) :
    assessAll policy resolver candidates = .ok (.settled
      (candidates.filterMap (verdictOf policy resolver))
      ((scoredOf policy resolver candidates).map (rankedOf policy resolver))) := by
  induction candidates with
  | nil => rfl
  | cons candidate rest ih =>
    obtain ⟨verdict, ranked, first⟩ := each candidate mem_cons_self
    have later := ih fun other listed => each other (mem_cons_of_mem _ listed)
    have own : verdictOf policy resolver candidate = some verdict := by
      rw [verdictOf, first]
      rfl
    rw [assessAll, bind_ok_iff]
    refine ⟨_, first, ?_⟩
    simp only [bind_ok_iff]
    refine ⟨_, later, ?_⟩
    cases ranked with
    | none =>
      have unranked : scoreOf policy resolver candidate = none := by rw [scoreOf, first]
      simp [scoredOf, unranked, own, pure, Except.pure]
    | some entry =>
      have scored : scoreOf policy resolver candidate = some entry.scoreMilli := by
        rw [scoreOf, first]
      simp [scoredOf, scored, own, pure, Except.pure]
      exact (assess_reports first).2.2.2.2

lemma settles_of_assessAll {verdicts survivors}
    (answer : assessAll policy resolver candidates = .ok (.settled verdicts survivors)) :
    ∀ candidate ∈ candidates, Settles policy resolver candidate := by
  induction candidates generalizing verdicts survivors with
  | nil => simp
  | cons candidate rest ih =>
    simp only [assessAll, bind_ok_iff] at answer
    obtain ⟨assessment, first, answer⟩ := answer
    cases assessment with
    | aborted verdict reason => simp at answer
    | settled verdict ranked =>
      simp only [bind_ok_iff] at answer
      obtain ⟨others, assessedRest, answer⟩ := answer
      cases others with
      | aborted verdicts reason => simp at answer
      | settled verdicts survivors =>
        rintro other (_ | ⟨_, listed⟩)
        · exact ⟨verdict, ranked, first⟩
        · exact ih assessedRest other listed

end Batch

/-! ## The canonical input -/

/-- The input of an evaluation, as its identity covers it. -/
def inputOf (policy : SelectionPolicy) (tables : SelectionTables) (facts : SelectionFactSnapshot)
    (nowUnixMs : Nat) (candidates : List Candidate) : EvaluationInput :=
  ⟨candidates, facts, nowUnixMs, tablesOfInput policy tables candidates facts nowUnixMs⟩

variable {u : Unit}

lemma checkCanonical_ok_iff {input : EvaluationInput} :
    input.checkCanonical = .ok u ↔ ∀ value ∈ input.integers,
      -canonicalSafeIntegerMax ≤ value ∧ value ≤ canonicalSafeIntegerMax := by
  unfold EvaluationInput.checkCanonical
  cases found : input.integers.find? fun value =>
    !(-canonicalSafeIntegerMax ≤ value && value ≤ canonicalSafeIntegerMax) with
  | none => simpa [pure, Except.pure] using found
  | some value =>
    have outside := find?_some found
    have listed := mem_of_find?_eq_some found
    simp only [throw, throwThe, MonadExceptOf.throw, reduceCtorEq, false_iff]
    intro safe
    simp [safe value listed] at outside

variable {value : Int}

section Tables

variable {policy : SelectionPolicy} {tables : SelectionTables} {fact : FactReader}
  {keyOf : String → Candidate → Option String} {candidates : List Candidate}

lemma mem_rowsOf {tableId : String} {reference} {row : Nat} :
    row ∈ tables.rowsOf candidates keyOf fact tableId reference ↔
      ∃ candidate ∈ candidates, row ∈ tables.rowsOf [candidate] keyOf fact tableId reference := by
  cases reference with
  | field | fact | keyedFact => simp [SelectionTables.rowsOf]
  | table read keyField pins valueColumn fallbackColumn absent =>
    simp only [SelectionTables.rowsOf]
    split
    · split
      · simp [mem_filterMap]
      · simp
    · simp

/-- Each candidate reads its own rows. -/
theorem mem_rowsRead {tableId : String} {row : Nat} :
    row ∈ tables.rowsRead policy candidates keyOf fact tableId ↔
      ∃ candidate ∈ candidates, row ∈ tables.rowsRead policy [candidate] keyOf fact tableId := by
  simp only [SelectionTables.rowsRead, mem_flatMap]
  constructor
  · rintro ⟨reference, declared, read⟩
    obtain ⟨candidate, inside, own⟩ := mem_rowsOf.mp read
    exact ⟨candidate, inside, reference, declared, own⟩
  · rintro ⟨candidate, inside, reference, declared, own⟩
    exact ⟨reference, declared, mem_rowsOf.mpr ⟨candidate, inside, own⟩⟩

lemma mem_tableIntegers_readRows :
    value ∈ tableIntegers (tables.readRows policy candidates keyOf fact) ↔
      ∃ tableId ∈ policy.tables.map (·.tableId), ∃ bound, tables.tables[tableId]? = some bound ∧
        ∃ row ∈ tables.rowsRead policy candidates keyOf fact tableId,
          value ∈ rowIntegers (rowObject bound row) := by
  simp only [tableIntegers, mem_flatMap, Prod.exists,
    Std.ExtTreeMap.mem_toList_iff_getElem?_eq_some, readRows_getElem?]
  constructor
  · rintro ⟨tableId, rows, held, row, listed, read⟩
    split at held
    · rename_i declared
      obtain ⟨bound, found, rfl⟩ := map_eq_some_iff.mp held
      obtain ⟨index, inside, rfl⟩ := mem_orderedRows.mp listed
      exact ⟨tableId, declared, bound, found, index, inside, read⟩
    · cases held
  · rintro ⟨tableId, declared, bound, found, index, inside, read⟩
    exact ⟨tableId, _, by rw [if_pos declared, found]; rfl, _,
      mem_orderedRows.mpr ⟨index, inside, rfl⟩, read⟩

end Tables

section Canonical

variable {policy : SelectionPolicy} {tables : SelectionTables} {facts : SelectionFactSnapshot}
  {nowUnixMs : Nat} {candidates : List Candidate}

lemma mem_tablesOfInput :
    value ∈ (tablesOfInput policy tables candidates facts nowUnixMs).elim [] tableIntegers ↔
      ∃ candidate ∈ candidates, value ∈
        (tablesOfInput policy tables [candidate] facts nowUnixMs).elim [] tableIntegers := by
  unfold tablesOfInput
  split
  · simp only [elim_some, mem_tableIntegers_readRows]
    constructor
    · rintro ⟨tableId, declared, bound, found, row, read, inside⟩
      obtain ⟨candidate, listed, own⟩ := mem_rowsRead.mp read
      exact ⟨candidate, listed, tableId, declared, bound, found, row, own, inside⟩
    · rintro ⟨candidate, listed, tableId, declared, bound, found, row, own, inside⟩
      exact ⟨tableId, declared, bound, found, row, mem_rowsRead.mpr ⟨candidate, listed, own⟩,
        inside⟩
  · simp

variable (policy tables facts nowUnixMs) in
/-- The candidate alone has a canonical input. -/
def Canonical (candidate : Candidate) : Prop :=
  (inputOf policy tables facts nowUnixMs [candidate]).checkCanonical = .ok ()

lemma canonical_renamed {candidate renamed} (same : renamed.fields = candidate.fields)
    (canonical : Canonical policy tables facts nowUnixMs candidate) :
    Canonical policy tables facts nowUnixMs renamed := by
  obtain ⟨id, fields⟩ := candidate
  obtain ⟨id', fields'⟩ := renamed
  obtain rfl : fields' = fields := same
  exact canonical

theorem mem_integers (nonempty : candidates ≠ []) :
    value ∈ (inputOf policy tables facts nowUnixMs candidates).integers ↔
      ∃ candidate ∈ candidates,
        value ∈ (inputOf policy tables facts nowUnixMs [candidate]).integers := by
  obtain ⟨first, listed⟩ := exists_mem_of_ne_nil candidates nonempty
  simp only [EvaluationInput.integers, inputOf, mem_append, mem_flatMap,
    mem_singleton, exists_eq_left]
  rw [mem_tablesOfInput]
  constructor
  · rintro (((⟨candidate, inside, own⟩ | fact) | now) | ⟨candidate, inside, own⟩)
    · exact ⟨candidate, inside, .inl (.inl (.inl own))⟩
    · exact ⟨first, listed, .inl (.inl (.inr fact))⟩
    · exact ⟨first, listed, .inl (.inr now)⟩
    · exact ⟨candidate, inside, .inr own⟩
  · rintro ⟨candidate, inside, ((own | fact) | now) | own⟩
    · exact .inl (.inl (.inl ⟨candidate, inside, own⟩))
    · exact .inl (.inl (.inr fact))
    · exact .inl (.inr now)
    · exact .inr ⟨candidate, inside, own⟩

lemma checkCanonical_ok_iff_each (nonempty : candidates ≠ []) :
    (inputOf policy tables facts nowUnixMs candidates).checkCanonical = .ok u ↔
      ∀ candidate ∈ candidates, Canonical policy tables facts nowUnixMs candidate := by
  simp only [Canonical, checkCanonical_ok_iff, mem_integers nonempty]
  constructor
  · exact fun safe candidate inside value own => safe value ⟨candidate, inside, own⟩
  · rintro each value ⟨candidate, inside, own⟩
    exact each candidate inside value own

/-- What is canonical with candidates is canonical without them. -/
theorem checkCanonical_nil
    (canonical : (inputOf policy tables facts nowUnixMs candidates).checkCanonical = .ok u) :
    (inputOf policy tables facts nowUnixMs []).checkCanonical = .ok u := by
  rw [checkCanonical_ok_iff] at canonical ⊢
  intro value listed
  refine canonical value ?_
  simp only [EvaluationInput.integers, inputOf, mem_append, flatMap_nil,
    not_mem_nil, false_or] at listed ⊢
  rw [mem_tablesOfInput] at listed
  rcases listed with shared | ⟨_, none, -⟩
  · exact .inl (shared.imp_left .inr)
  · cases none

end Canonical

/-! ## Evaluations -/

/-- What an evaluation needs besides its candidates. -/
structure Ready (digests : Digests) (policy : SelectionPolicy) (tables : SelectionTables)
    (facts : SelectionFactSnapshot) (nowUnixMs : Nat) (lists : ListIndex) : Prop where
  valid : policy.validate = .ok ()
  bound : tables.checkBound policy = .ok ()
  digest : ∃ sha256, digests.policySha256 policy = .ok sha256
  lists : readLists policy facts nowUnixMs = .ok lists

def SelectionOutcome.isUnknown : SelectionOutcome → Bool
  | unknown _ _ => true
  | _ => false

section Evaluation

variable {digests : Digests} {policy : SelectionPolicy} {tables : SelectionTables}
  {candidates : List Candidate} {facts : SelectionFactSnapshot} {nowUnixMs : Nat}
  {decision : SelectionDecision} {lists : ListIndex}

/-- An evaluation that does not abort settles every one of its candidates. -/
theorem ready_of_evaluate
    (answer : evaluateWithTables digests policy tables candidates facts nowUnixMs = .ok decision)
    (known : decision.outcome.isUnknown = false) :
    ∃ lists, Ready digests policy tables facts nowUnixMs lists ∧
      ∀ candidate ∈ candidates,
        Settles policy (.new policy facts lists tables nowUnixMs) candidate ∧
          Canonical policy tables facts nowUnixMs candidate := by
  obtain ⟨_, admitted, cases⟩ := evaluate_cases answer
  rcases cases with ⟨_, -, rfl⟩ | ⟨lists, assessed, read, all, rfl⟩
  · simp [decideUnread, finish, SelectionOutcome.isUnknown] at known
  refine ⟨lists, ⟨admitted.valid, admitted.bound, ⟨_, admitted.digest⟩, read⟩, ?_⟩
  intro candidate inside
  have nonempty : candidates ≠ [] := ne_nil_of_mem inside
  refine ⟨?_, (checkCanonical_ok_iff_each nonempty).mp admitted.canonical candidate inside⟩
  cases assessed with
  | aborted verdicts reason =>
    simp [decideAssessed, finish, SelectionOutcome.isUnknown] at known
  | settled verdicts survivors => exact settles_of_assessAll all candidate inside

/-- A verdict ranks its candidate exactly when the candidate has a score, and reports it. -/
theorem verdict_scoreOf
    (answer : evaluateWithTables digests policy tables candidates facts nowUnixMs = .ok decision)
    (ready : Ready digests policy tables facts nowUnixMs lists)
    (listed : verdict ∈ decision.candidates) {candidate}
    (inside : candidate ∈ candidates) (named : verdict.candidateId = candidate.candidateId) :
    if verdict.status = .ranked then
      verdict.scoreMilli =
        scoreOf policy (.new policy facts lists tables nowUnixMs) candidate ∧
        verdict.scoreMilli.isSome = true
    else scoreOf policy (.new policy facts lists tables nowUnixMs) candidate = none := by
  obtain ⟨-, -, distinct, origin⟩ := evaluate_verdicts answer
  obtain ⟨lists', read, other, known, assessment, answered, same⟩ := origin verdict listed
  obtain rfl : lists' = lists := ok.inj (read.symm.trans ready.lists)
  have owner {id} (own : id = other.candidateId) (reported : verdict.candidateId = id) :
      other = candidate :=
    inj_on_of_nodup_map distinct known inside ((own.symm.trans reported.symm).trans named)
  have reports := assess_reports answered
  match assessment, reports with
  | .settled own (some entry), ⟨sameId, ranked, score, _, _⟩ =>
    obtain rfl := owner sameId same.candidateId
    have scored : scoreOf policy (.new policy facts lists' tables nowUnixMs) other =
        some entry.scoreMilli := by rw [scoreOf, answered]
    rw [if_pos (same.status.trans ranked), scored]
    have reported : verdict.scoreMilli = some entry.scoreMilli := same.scoreMilli.trans score
    exact ⟨reported, by rw [reported]; rfl⟩
  | .settled own none, ⟨sameId, apart, _⟩ =>
    obtain rfl := owner sameId same.candidateId
    rw [if_neg (same.status ▸ apart), scoreOf, answered]
  | .aborted own reason, ⟨sameId, apart, _⟩ =>
    obtain rfl := owner sameId same.candidateId
    rw [if_neg (same.status ▸ apart), scoreOf, answered]

/-- Candidates that settle, in a canonical input, are evaluated together. -/
theorem evaluate_settled (ready : Ready digests policy tables facts nowUnixMs lists)
    (set : checkCandidateSet candidates = .ok ())
    (canonical : (inputOf policy tables facts nowUnixMs candidates).checkCanonical = .ok ())
    (each : ∀ candidate ∈ candidates,
      Settles policy (.new policy facts lists tables nowUnixMs) candidate) :
    ∃ header reasons verdicts,
      evaluateWithTables digests policy tables candidates facts nowUnixMs =
        .ok (decideSurvivors policy header reasons verdicts
          ((scoredOf policy (.new policy facts lists tables nowUnixMs) candidates).map
            (rankedOf policy (.new policy facts lists tables nowUnixMs)))) := by
  obtain ⟨sha256, digest⟩ := ready.digest
  have all := assessAll_settled each
  have admitted : Admitted digests policy tables candidates facts nowUnixMs sha256 :=
    ⟨ready.valid, set, ready.bound, digest, canonical⟩
  let header := headerOf digests policy tables candidates facts nowUnixMs sha256
  refine ⟨header, declaredReasons policy header,
    candidates.filterMap (verdictOf policy (.new policy facts lists tables nowUnixMs)), ?_⟩
  rw [admitted.evaluate, ready.lists]
  simp only [all]
  rfl

end Evaluation

end Selection
