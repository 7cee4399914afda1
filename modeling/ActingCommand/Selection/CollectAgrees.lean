import ActingCommand.Selection.BoundSound
import ActingCommand.Selection.Permuted
import ActingCommand.Selection.Typed

/-!
# The collect option and the evaluation

The collect option gates and scores by its own pass. Where an evaluation reports a verdict and
substituted nothing for an unknown input, the collected score is the ranked one. The collect
option refuses documents with record lists or tables.
-/

namespace Selection

open Machine ThreeValued List Except CandidateVerdict

/-! ## Substituted rules -/

def GateOutcome.isSubstituted : GateOutcome → Bool
  | unknownSubstituted _ _ => true
  | _ => false

def TermOutcome.isSubstituted : TermOutcome → Bool
  | unknownSubstituted _ _ => true
  | _ => false

def CandidateVerdict.gateSubstituted (verdict : CandidateVerdict) : Bool :=
  verdict.gates.any fun result => result.outcome.isSubstituted

def CandidateVerdict.termSubstituted (verdict : CandidateVerdict) : Bool :=
  verdict.terms.any fun result => result.outcome.isSubstituted

/-- A declared verdict or value stood in for an unknown input. -/
def CandidateVerdict.substituted (verdict : CandidateVerdict) : Bool :=
  verdict.gateSubstituted || verdict.termSubstituted

variable {verdict : CandidateVerdict}

section Assess

variable {candidate : Candidate} {resolver : Resolver}

variable {later : CandidateVerdict}

/-- A gate that keeps the candidate held, or its declared verdict stood in. -/
theorem assessGate_substituted {gate}
    (kept : assessGate candidate resolver gate verdict = .kept later) :
    later.terms = verdict.terms ∧
      (later.gateSubstituted = false ↔ verdict.gateSubstituted = false ∧
        gate.predicate.meaning candidate resolver = .holds) := by
  rw [assessGate] at kept
  simp only [truth_fst] at kept
  cases value : gate.predicate.meaning candidate resolver with
  | holds =>
    rw [value] at kept
    cases kept
    simp [gateSubstituted, GateOutcome.isSubstituted]
  | fails =>
    rw [value] at kept
    cases kept
  | unknown reason =>
    rw [value] at kept
    cases handling : gate.onUnknown with
    | abortEvaluation | dropCandidate =>
      rw [handling] at kept
      cases kept
    | substituteVerdict passes =>
      rw [handling] at kept
      cases passes with
      | false => cases kept
      | true =>
        cases kept
        simp [gateSubstituted, GateOutcome.isSubstituted]

lemma assessGates_substituted {gates}
    (kept : assessGates candidate resolver gates verdict = .kept later) :
    later.terms = verdict.terms ∧
      (later.gateSubstituted = false ↔ verdict.gateSubstituted = false ∧
        ∀ gate ∈ gates, gate.predicate.meaning candidate resolver = .holds) := by
  induction gates generalizing verdict with
  | nil =>
    cases kept
    simp
  | cons gate rest ih =>
    rw [assessGates] at kept
    cases step : assessGate candidate resolver gate verdict with
    | settled | aborted =>
      rw [step] at kept
      cases kept
    | kept noted =>
      rw [step] at kept
      obtain ⟨sameTerms, plain⟩ := assessGate_substituted step
      obtain ⟨laterTerms, laterPlain⟩ := ih kept
      refine ⟨laterTerms.trans sameTerms, ?_⟩
      rw [laterPlain, plain, forall_mem_cons, and_assoc]

lemma assessTerm_substituted {term} {contributionMilli : Int}
    (kept : assessTerm candidate resolver term verdict = .ok (.kept later, contributionMilli)) :
    later.gates = verdict.gates ∧
      (later.termSubstituted = false ↔ verdict.termSubstituted = false ∧
        ∃ transformedMilli, termValue candidate resolver term = .ok transformedMilli) := by
  rw [assessTerm] at kept
  simp only at kept
  cases value : termValue candidate resolver term with
  | ok transformedMilli =>
    simp only [value, termOutcome, applyTerm, bind_ok_iff, pure_ok_iff, Prod.mk.injEq,
      RuleStep.kept.injEq] at kept
    obtain ⟨_, -, rfl, -⟩ := kept
    simp [termSubstituted, TermOutcome.isSubstituted]
  | error reason =>
    cases handling : term.onUnknown with
    | abortEvaluation | dropCandidate =>
      rw [value, handling] at kept
      cases kept
    | substituteMilli valueMilli =>
      simp only [value, handling, termOutcome, applyTerm, bind_ok_iff, pure_ok_iff, Prod.mk.injEq,
        RuleStep.kept.injEq] at kept
      obtain ⟨_, -, rfl, -⟩ := kept
      simp [termSubstituted, TermOutcome.isSubstituted]

lemma assessTerms_substituted {terms} {start total : Int}
    (kept : assessTerms candidate resolver terms start verdict = .ok (.kept later, total)) :
    later.gates = verdict.gates ∧
      (later.termSubstituted = false ↔ verdict.termSubstituted = false ∧
        ∀ term ∈ terms, ∃ transformedMilli,
          termValue candidate resolver term = .ok transformedMilli) := by
  induction terms generalizing start verdict with
  | nil =>
    cases kept
    simp
  | cons term rest ih =>
    simp only [assessTerms, bind_ok_iff] at kept
    obtain ⟨⟨step, x⟩, first, kept⟩ := kept
    cases step with
    | settled | aborted => simp at kept
    | kept noted =>
      obtain ⟨sameGates, plain⟩ := assessTerm_substituted first
      obtain ⟨laterGates, laterPlain⟩ := ih kept
      refine ⟨laterGates.trans sameGates, ?_⟩
      rw [laterPlain, plain, forall_mem_cons, and_assoc]

/-- Nothing was substituted for a ranked candidate exactly when every gate holds and every term
reads a known value. -/
theorem assess_substituted {policy} {entry : Ranked}
    (answer : assess policy candidate resolver = .ok (.settled verdict (some entry))) :
    verdict.substituted = false ↔
      (∀ gate ∈ policy.gates, gate.predicate.meaning candidate resolver = .holds) ∧
        ∀ term ∈ policy.scoring, ∃ transformedMilli,
          termValue candidate resolver term = .ok transformedMilli := by
  rw [assess] at answer
  cases step : assessGates candidate resolver policy.gates
    (freshVerdict candidate.candidateId) with
  | settled | aborted =>
    rw [step] at answer
    simp at answer
  | kept gated =>
    rw [step] at answer
    simp only [bind_ok_iff] at answer
    obtain ⟨⟨ended, total⟩, scored, answer⟩ := answer
    cases ended with
    | settled | aborted => simp at answer
    | kept last =>
      obtain ⟨sameTerms, gatesPlain⟩ := assessGates_substituted step
      obtain ⟨sameGates, termsPlain⟩ := assessTerms_substituted scored
      simp only [scoreCandidate, bind_ok_iff, pure_ok_iff, Assessment.settled.injEq] at answer
      obtain ⟨scoreMilli, -, rfl, -⟩ := answer
      have gates : last.gateSubstituted = gated.gateSubstituted := by
        rw [gateSubstituted, sameGates, gateSubstituted]
      have terms : gated.termSubstituted = false := by
        rw [termSubstituted, sameTerms]
        rfl
      have fresh : (freshVerdict candidate.candidateId).gateSubstituted = false := rfl
      have both : last.substituted = false ↔
          last.gateSubstituted = false ∧ last.termSubstituted = false := by
        rw [substituted, Bool.or_eq_false_iff]
      refine both.trans ?_
      rw [gates, gatesPlain, termsPlain]
      simp [terms, fresh]

lemma yields_of_contributions {terms xs} (each : Contributions candidate resolver terms xs)
    (known : ∀ term ∈ terms, ∃ transformedMilli,
      termValue candidate resolver term = .ok transformedMilli) :
    KnownContributions candidate resolver terms xs := by
  induction each with
  | nil => exact .nil
  | cons contributes _ ih =>
    rw [forall_mem_cons] at known
    obtain ⟨value, transformed, fits⟩ := contributes
    refine .cons ⟨value, ?_, fits⟩ (ih known.2)
    rcases transformed with read | ⟨⟨reason, unknown⟩, -⟩
    · exact read
    obtain ⟨other, read⟩ := known.1
    rw [read] at unknown
    cases unknown

lemma KnownScore.scores {policy} {scoreMilli : Int}
    (known : KnownScore policy candidate resolver scoreMilli) :
    Scores policy candidate resolver scoreMilli := by
  obtain ⟨xs, each, rfl⟩ := known.terms
  refine ⟨fun gate inside => Or.inl (known.gates gate inside), xs, ?_, rfl⟩
  exact each.imp fun term x ⟨value, read, fits⟩ => ⟨value, Or.inl read, fits⟩

/-- An assessment ranks a candidate without a substitution exactly by its known score. -/
theorem assess_knownScore {policy assessment}
    (answer : assess policy candidate resolver = .ok assessment) (scoreMilli : Int) :
    assessment.verdict.status = .ranked ∧ assessment.verdict.scoreMilli = some scoreMilli ∧
        assessment.verdict.substituted = false ↔
      KnownScore policy candidate resolver scoreMilli := by
  have reports := assess_reports answer
  match assessment, answer, reports with
  | .settled verdict (some entry), answer, ⟨_, ranked, scored, scores, _⟩ =>
    have plain := assess_substituted answer
    constructor
    · rintro ⟨-, reported, none⟩
      obtain ⟨gates, terms⟩ := plain.mp none
      obtain ⟨xs, each, total⟩ := scores.terms
      have same : entry.scoreMilli = scoreMilli :=
        Option.some.inj (scored.symm.trans reported)
      exact ⟨gates, xs, yields_of_contributions each terms, same.symm.trans total⟩
    · rintro ⟨gates, xs, each, rfl⟩
      have known := known_of_yields each
      obtain ⟨ys, others, total⟩ := scores.terms
      have same := yields_unique (yields_of_contributions others known) each
      refine ⟨ranked, scored.trans ?_, plain.mpr ⟨gates, known⟩⟩
      rw [total, same]
  | .settled verdict none, _, ⟨_, apart, unscored⟩ =>
    exact iff_of_false (fun ⟨ranked, _⟩ => apart ranked) fun known => unscored _ known.scores
  | .aborted verdict reason, _, ⟨_, apart, unscored⟩ =>
    exact iff_of_false (fun ⟨ranked, _⟩ => apart ranked) fun known => unscored _ known.scores

end Assess

/-! ## One world for both -/

section Collect

variable {digests : Digests} {policy : SelectionPolicy} {tables : SelectionTables}
  {candidates : List Candidate} {facts : SelectionFactSnapshot} {nowUnixMs : Nat}
  {collected : List CollectedCandidate}

/-- Fields and facts are read the same with record lists and tables at hand or without. -/
theorem readAlike_collect {references}
    (types : ∀ reference ∈ references, ∃ valueType, policy.Types reference valueType)
    (candidate : Candidate) (lists : ListIndex) :
    ReadAlike candidate candidate (.new policy facts lists tables nowUnixMs)
      (collectResolver policy facts nowUnixMs) references where
  noting reference listed reads := by
    obtain ⟨valueType, typed⟩ := types reference listed
    cases reference with
    | field | fact => rfl
    | keyedFact | table => exact typed.elim
  known _ := rfl

variable (policy candidates) in
/-- What a collect call that answers was given. -/
structure CollectAdmitted : Prop where
  valid : policy.validate = .ok ()
  noLists : policy.usesRecordLists = false
  noTables : policy.usesTables = false
  set : checkCandidateSet candidates = .ok ()

lemma collectAll_ok_iff {resolver} :
    collectAll policy resolver candidates = .ok collected ↔
      List.Forall₂ (fun candidate result => collectCandidate policy resolver candidate = .ok result)
        candidates collected := by
  induction candidates generalizing collected with
  | nil => simp [collectAll, pure, Except.pure, eq_comm]
  | cons candidate rest ih =>
    simp only [collectAll, bind_ok_iff, ih, pure_ok_iff, List.forall₂_cons_left_iff]
    constructor
    · rintro ⟨result, first, others, later, rfl⟩
      exact ⟨result, others, first, later, rfl⟩
    · rintro ⟨result, others, first, later, rfl⟩
      exact ⟨result, first, others, later, rfl⟩

lemma collectAll_answers {resolver}
    (each : ∀ candidate ∈ candidates, ∃ result,
      collectCandidate policy resolver candidate = .ok result) :
    ∃ collected, collectAll policy resolver candidates = .ok collected := by
  induction candidates with
  | nil => exact ⟨[], rfl⟩
  | cons candidate rest ih =>
    rw [forall_mem_cons] at each
    obtain ⟨result, first⟩ := each.1
    obtain ⟨others, later⟩ := ih each.2
    exact ⟨result :: others, collectAll_ok_iff.mpr (.cons first (collectAll_ok_iff.mp later))⟩

lemma evaluateCollect_ok_iff :
    evaluateCollect policy candidates facts nowUnixMs = .ok collected ↔
      CollectAdmitted policy candidates ∧
        List.Forall₂ (fun candidate result =>
            collectCandidate policy (collectResolver policy facts nowUnixMs) candidate = .ok result)
          candidates collected := by
  simp only [evaluateCollect, bind_ok_iff, failIf_ok_iff, collectAll_ok_iff, Bool.not_eq_true]
  constructor
  · rintro ⟨_, valid, _, noLists, _, noTables, _, set, each⟩
    exact ⟨⟨valid, noLists, noTables, set⟩, each⟩
  · rintro ⟨⟨valid, noLists, noTables, set⟩, each⟩
    exact ⟨(), valid, (), noLists, (), noTables, (), set, each⟩

/-! ## Agreement -/

variable (digests policy tables candidates facts nowUnixMs)

def CollectScores (candidateId : String) (scoreMilli : Int) : Prop :=
  ∃ collected, evaluateCollect policy candidates facts nowUnixMs = .ok collected ∧
    ∃ result ∈ collected, result.candidateId = candidateId ∧ result.verdict = .scored scoreMilli

def CollectRejects (candidateId gateId : String) : Prop :=
  ∃ collected, evaluateCollect policy candidates facts nowUnixMs = .ok collected ∧
    ∃ result ∈ collected, result.candidateId = candidateId ∧ result.verdict = .gateRejected gateId

/-- The evaluation ranks the candidate with the score and substituted no gate or term for it. -/
def RanksKnown (candidateId : String) (scoreMilli : Int) : Prop :=
  ∃ decision, evaluateWithTables digests policy tables candidates facts nowUnixMs =
      .ok decision ∧
    ∃ verdict ∈ decision.candidates, verdict.candidateId = candidateId ∧
      verdict.status = .ranked ∧ verdict.scoreMilli = some scoreMilli ∧
        verdict.substituted = false

def Reported (candidateId : String) : Prop :=
  ∃ decision, evaluateWithTables digests policy tables candidates facts nowUnixMs =
      .ok decision ∧ ∃ verdict ∈ decision.candidates, verdict.candidateId = candidateId

section Agreement

variable {digests policy tables candidates facts nowUnixMs} {decision : SelectionDecision}
  {result : CollectedCandidate}

section

variable (collects : evaluateCollect policy candidates facts nowUnixMs = .ok collected)
  (gathered : result ∈ collected)
  (answer : evaluateWithTables digests policy tables candidates facts nowUnixMs = .ok decision)
  (listed : verdict ∈ decision.candidates) (named : result.candidateId = verdict.candidateId)

include collects gathered answer listed named

/-- A collected result and a verdict under one identifier are about one candidate, which both
passes read alike. -/
theorem collected_origin : ∃ candidate assessment,
      collectCandidate policy (collectResolver policy facts nowUnixMs) candidate = .ok result ∧
      assess policy candidate (collectResolver policy facts nowUnixMs) = .ok assessment ∧
      verdict.Annotates assessment.verdict := by
  obtain ⟨admitted, each⟩ := evaluateCollect_ok_iff.mp collects
  obtain ⟨scope, checked⟩ := policy.scoped_of_validate admitted.valid
  obtain ⟨-, -, distinct, origin⟩ := evaluate_verdicts answer
  obtain ⟨lists, -, candidate, inside, assessment, assessed, annotates⟩ := origin verdict listed
  obtain ⟨other, known, own⟩ : ∃ other ∈ candidates,
      collectCandidate policy (collectResolver policy facts nowUnixMs) other = .ok result := by
    obtain ⟨index, bound, rfl⟩ := mem_iff_getElem.mp gathered
    have short : index < candidates.length := each.length_eq ▸ bound
    exact ⟨candidates[index], getElem_mem short, each.get short bound⟩
  have sameId : other.candidateId = candidate.candidateId := calc
    other.candidateId = result.candidateId := (collectCandidate_candidateId own).symm
    _ = verdict.candidateId := named
    _ = assessment.verdict.candidateId := annotates.candidateId
    _ = candidate.candidateId := assess_candidateId assessed
  obtain rfl := inj_on_of_nodup_map distinct known inside sameId
  rw [assess_alike (readAlike_collect (checked.valueRefs admitted.noLists admitted.noTables)
    other lists)] at assessed
  exact ⟨other, assessment, own, assessed, annotates⟩

lemma collected_scored_iff (scoreMilli : Int) :
    result.verdict = .scored scoreMilli ↔ verdict.status = .ranked ∧
      verdict.scoreMilli = some scoreMilli ∧ verdict.substituted = false := by
  obtain ⟨candidate, assessment, own, assessed, annotates⟩ :=
    collected_origin collects gathered answer listed named
  rw [collectCandidate_scored own, ← assess_knownScore assessed, annotates.status,
    annotates.scoreMilli]
  simp [substituted, gateSubstituted, termSubstituted, annotates.gates, annotates.terms]

end

lemma collected_rejected_unranked
    (collects : evaluateCollect policy candidates facts nowUnixMs = .ok collected)
    (gathered : result ∈ collected) {gateId : String}
    (rejected : result.verdict = .gateRejected gateId)
    (answer : evaluateWithTables digests policy tables candidates facts nowUnixMs = .ok decision)
    (listed : verdict ∈ decision.candidates) (named : result.candidateId = verdict.candidateId) :
    verdict.status ≠ .ranked := by
  obtain ⟨candidate, assessment, own, assessed, annotates⟩ :=
    collected_origin collects gathered answer listed named
  obtain ⟨gate, inside, -, fails⟩ := collectCandidate_rejected own rejected
  have stops : ¬ gate.Passes candidate (collectResolver policy facts nowUnixMs) := by
    rintro (holds | ⟨⟨reason, unknown⟩, -⟩)
    · rw [fails] at holds
      cases holds
    · rw [fails] at unknown
      cases unknown
  rw [annotates.status]
  match assessment, assess_reports assessed with
  | .settled _ (some _), ⟨_, _, _, scores, _⟩ => exact (stops (scores.gates gate inside)).elim
  | .settled _ none, ⟨_, apart, _⟩ => exact apart
  | .aborted _ _, ⟨_, apart, _⟩ => exact apart

/-- A document without record lists and tables that is evaluated to the end is collected. -/
theorem evaluateCollect_answers
    (answer : evaluateWithTables digests policy tables candidates facts nowUnixMs = .ok decision)
    (known : decision.outcome.isUnknown = false) (noLists : policy.usesRecordLists = false)
    (noTables : policy.usesTables = false) :
    ∃ collected, evaluateCollect policy candidates facts nowUnixMs = .ok collected := by
  obtain ⟨policySha256, admitted⟩ := admitted_of_evaluate answer
  obtain ⟨scope, checked⟩ := policy.scoped_of_validate admitted.valid
  obtain ⟨lists, -, settles⟩ := ready_of_evaluate answer known
  have each : ∀ candidate ∈ candidates, ∃ result,
      collectCandidate policy (collectResolver policy facts nowUnixMs) candidate = .ok result := by
    intro candidate inside
    obtain ⟨⟨verdict, ranked, assessed⟩, -⟩ := settles candidate inside
    rw [assess_alike (readAlike_collect (checked.valueRefs noLists noTables) candidate lists)]
      at assessed
    exact collectCandidate_answers assessed
  obtain ⟨collected, answers⟩ := collectAll_answers each
  exact ⟨collected, evaluateCollect_ok_iff.mpr
    ⟨⟨admitted.valid, noLists, noTables, admitted.set⟩, collectAll_ok_iff.mp answers⟩⟩

end Agreement

/-- Where the collect option answers and the evaluation reports the candidate, the two agree; where
the evaluation reaches no unknown outcome over a document without record lists and tables, both do;
and a candidate whose rejection is collected is never ranked. -/
theorem collect_agrees_with_evaluate :
    (∀ collected candidateId,
      evaluateCollect policy candidates facts nowUnixMs = .ok collected →
      Reported digests policy tables candidates facts nowUnixMs candidateId → ∀ scoreMilli,
        (CollectScores policy candidates facts nowUnixMs candidateId scoreMilli ↔
          RanksKnown digests policy tables candidates facts nowUnixMs candidateId scoreMilli)) ∧
    (∀ decision, evaluateWithTables digests policy tables candidates facts nowUnixMs =
        .ok decision → decision.outcome.isUnknown = false →
      policy.usesRecordLists = false → policy.usesTables = false →
        (∃ collected, evaluateCollect policy candidates facts nowUnixMs = .ok collected) ∧
        ∀ candidate ∈ candidates,
          Reported digests policy tables candidates facts nowUnixMs candidate.candidateId) ∧
    ∀ candidateId gateId, CollectRejects policy candidates facts nowUnixMs candidateId gateId →
      ∀ scoreMilli,
        ¬ Ranks digests policy tables candidates facts nowUnixMs candidateId scoreMilli := by
  refine ⟨?_, ?_, ?_⟩
  · rintro collected candidateId collects ⟨decision, answer, verdict, listed, named⟩ scoreMilli
    constructor
    · rintro ⟨_, also, result, gathered, named', scored⟩
      obtain rfl := ok.inj (collects.symm.trans also)
      have agree := collected_scored_iff collects gathered answer listed (named'.trans named.symm)
      exact ⟨decision, answer, verdict, listed, named, (agree scoreMilli).mp scored⟩
    · rintro ⟨_, also, verdict', listed', named', ranked⟩
      obtain rfl := ok.inj (answer.symm.trans also)
      obtain ⟨-, each⟩ := evaluateCollect_ok_iff.mp collects
      obtain ⟨-, -, -, origin⟩ := evaluate_verdicts answer
      obtain ⟨lists, -, candidate, inside, assessment, assessed, annotates⟩ :=
        origin verdict' listed'
      obtain ⟨index, bound, rfl⟩ := mem_iff_getElem.mp inside
      have short : index < collected.length := each.length_eq ▸ bound
      have own := each.get bound short
      have gathered := getElem_mem short
      have sameId : (collected[index]).candidateId = verdict'.candidateId := calc
        (collected[index]).candidateId = (candidates[index]).candidateId :=
          collectCandidate_candidateId own
        _ = assessment.verdict.candidateId := (assess_candidateId assessed).symm
        _ = verdict'.candidateId := annotates.candidateId.symm
      have agree := collected_scored_iff collects gathered answer listed' sameId
      exact ⟨collected, collects, _, gathered, sameId.trans named', (agree scoreMilli).mpr ranked⟩
  · intro decision answer known noLists noTables
    refine ⟨evaluateCollect_answers answer known noLists noTables, fun candidate inside => ?_⟩
    have ids := evaluate_ids answer known
    have listed : candidate.candidateId ∈ decision.candidates.map (·.candidateId) := by
      rw [ids]
      exact List.mem_map_of_mem inside
    obtain ⟨verdict, reported, named⟩ := List.mem_map.mp listed
    exact ⟨decision, answer, verdict, reported, named⟩
  · rintro candidateId gateId ⟨collected, collects, result, gathered, named, rejected⟩ scoreMilli
      ⟨decision, answer, verdict, listed, named', ranked, -⟩
    exact collected_rejected_unranked collects gathered rejected answer listed
      (named.trans named'.symm) ranked

end Collect

namespace Sample

/-- One candidate scores 4960 under either call. -/
theorem level_collected :
    (CollectScores levelPolicy [levelCandidate] noFacts 0 "level#00" 4960 ↔
      RanksKnown digests levelPolicy noTables [levelCandidate] noFacts 0 "level#00" 4960) ∧
    RanksKnown digests levelPolicy noTables [levelCandidate] noFacts 0 "level#00" 4960 :=
  ⟨(collect_agrees_with_evaluate digests levelPolicy noTables [levelCandidate] noFacts 0).1 _ _ rfl
      ⟨_, rfl, _, mem_cons_self, rfl⟩ 4960,
    ⟨_, rfl, _, mem_cons_self, rfl, rfl, rfl, rfl⟩⟩

/-- The flag's gate ends the evaluation when the flag is unknown. -/
def abortingPolicy : SelectionPolicy :=
  { levelPolicy with
    gates := [⟨"gate-ready", .booleanEquals (.field "ready") true, .abortEvaluation⟩] }

def unreadCandidate : Candidate where
  candidateId := "level#01"
  fields := .ofList [("member", ScalarValue.string "member-a"), ("level", ScalarValue.integer 40)]

/-- A record list is declared, and read by no rule. -/
def rosterPolicy : SelectionPolicy :=
  { levelPolicy with
    facts := [⟨"fact-roster", .recordList "member" [("share", .integer)], 1000, 0⟩] }

def rosterFacts : SelectionFactSnapshot :=
  ⟨"snapshot-roster", 0,
    .ofList [("fact-roster", SelectionFactEntry.recordList [] ⟨0, none, 1000⟩)]⟩

/-- The collect option scores a candidate that the evaluation ends before, and refuses a document
whose candidate the evaluation ranks. -/
theorem collect_differs_from_evaluate :
    (CollectScores abortingPolicy [unreadCandidate, levelCandidate] noFacts 0 "level#00" 4960 ∧
      ¬ RanksKnown digests abortingPolicy noTables [unreadCandidate, levelCandidate] noFacts 0
        "level#00" 4960) ∧
    RanksKnown digests rosterPolicy noTables [levelCandidate] rosterFacts 0 "level#00" 4960 ∧
      ¬ CollectScores rosterPolicy [levelCandidate] rosterFacts 0 "level#00" 4960 := by
  refine ⟨⟨⟨_, rfl, _, mem_cons_of_mem _ mem_cons_self, rfl, rfl⟩, ?_⟩, ?_, ?_⟩
  · rintro ⟨decision, answer, verdict, listed, named, -⟩
    have ended : (evaluateWithTables digests abortingPolicy noTables
        [unreadCandidate, levelCandidate] noFacts 0).map
          (fun decision => decision.candidates.map (·.candidateId)) = .ok ["level#01"] := rfl
    rw [answer] at ended
    have ids : decision.candidates.map (·.candidateId) = ["level#01"] := ok.inj ended
    have reported := List.mem_map_of_mem (f := (·.candidateId)) listed
    rw [ids, named] at reported
    simp at reported
  · exact ⟨_, rfl, _, mem_cons_self, rfl, rfl, rfl, rfl⟩
  · rintro ⟨collected, answer, -⟩
    have refused := (evaluateCollect_ok_iff.mp answer).1.noLists
    cases refused

end Sample

end Selection
