import ActingCommand.Scan.EarlyStop
import ActingCommand.Selection.Permuted

/-!
# Candidates evaluated in batches

A scan evaluates its positions viewport by viewport and its members once more, under new
identifiers, when it decides. Candidates that settle in their batches settle together, with the
same status and score, as long as together they are not too many.
-/

namespace Selection

open List Except

section Union

variable {digests : Digests} {policy : SelectionPolicy} {tables : SelectionTables}
  {facts : SelectionFactSnapshot} {nowUnixMs : Nat} {candidates : List Candidate}
  {decision : SelectionDecision} {lists : ListIndex}

variable (digests policy tables facts nowUnixMs candidates decision) in
/-- The evaluation answers, and it is not ended by an unknown input. -/
def Completes : Prop :=
  evaluateWithTables digests policy tables candidates facts nowUnixMs = .ok decision ∧
    decision.outcome.isUnknown = false

section

variable (completes : Completes digests policy tables facts nowUnixMs candidates decision)

include completes

lemma Completes.ready : ∃ lists, Ready digests policy tables facts nowUnixMs lists ∧
      (inputOf policy tables facts nowUnixMs candidates).checkCanonical = .ok () ∧
      ∀ candidate ∈ candidates,
        Settles policy (.new policy facts lists tables nowUnixMs) candidate ∧
          Canonical policy tables facts nowUnixMs candidate := by
  obtain ⟨lists, ready, each⟩ := ready_of_evaluate completes.1 completes.2
  obtain ⟨_, admitted⟩ := admitted_of_evaluate completes.1
  exact ⟨lists, ready, admitted.canonical, each⟩

/-- The verdict of a candidate that settles is the one it settles with. -/
theorem Completes.verdict (ready : Ready digests policy tables facts nowUnixMs lists)
    {verdict} (listed : verdict ∈ decision.candidates) {candidate : Candidate}
    (inside : candidate ∈ candidates) (named : verdict.candidateId = candidate.candidateId) :
    ∃ own ranked, assess policy candidate (.new policy facts lists tables nowUnixMs) =
        .ok (.settled own ranked) ∧ verdict.Annotates own := by
  obtain ⟨-, -, distinct, origin⟩ := evaluate_verdicts completes.1
  obtain ⟨others, read, other, known, assessment, answered, annotates⟩ := origin verdict listed
  obtain rfl : others = lists := ok.inj (read.symm.trans ready.lists)
  obtain rfl : other = candidate := inj_on_of_nodup_map distinct known inside
    ((assess_candidateId answered).symm.trans (annotates.candidateId.symm.trans named))
  obtain ⟨also, settled⟩ := ready_of_evaluate completes.1 completes.2
  obtain rfl : also = others := ok.inj (settled.1.lists.symm.trans ready.lists)
  obtain ⟨⟨own, ranked, settles⟩, -⟩ := settled.2 other inside
  obtain rfl := ok.inj (answered.symm.trans settles)
  exact ⟨own, ranked, settles, annotates⟩

end

/-- Candidates that settle are evaluated together, and none of them ends the evaluation. -/
theorem completes_of_settles (ready : Ready digests policy tables facts nowUnixMs lists)
    (set : checkCandidateSet candidates = .ok ())
    (bare : (inputOf policy tables facts nowUnixMs []).checkCanonical = .ok ())
    (each : ∀ candidate ∈ candidates,
      Settles policy (.new policy facts lists tables nowUnixMs) candidate ∧
        Canonical policy tables facts nowUnixMs candidate) :
    ∃ decision, Completes digests policy tables facts nowUnixMs candidates decision := by
  have canonical : (inputOf policy tables facts nowUnixMs candidates).checkCanonical = .ok () := by
    by_cases none : candidates = []
    · rw [none]
      exact bare
    · exact (checkCanonical_ok_iff_each none).mpr fun candidate inside => (each candidate inside).2
  obtain ⟨header, reasons, verdicts, answer⟩ := evaluate_settled ready set canonical
    fun candidate inside => (each candidate inside).1
  refine ⟨_, answer, ?_⟩
  -- A decision over survivors is never unknown.
  change (outcomeOf (sortRanked _) _).isUnknown = false
  unfold outcomeOf
  split
  · rfl
  split
  · rfl
  · split <;> rfl

/-- Candidates whose fields occur in batches that complete are evaluated together. -/
theorem completes_union {batches} (nonempty : batches ≠ [])
    (each : ∀ batch ∈ batches, ∃ decision,
      Completes digests policy tables facts nowUnixMs batch decision)
    (set : checkCandidateSet candidates = .ok ())
    (twins : ∀ candidate ∈ candidates, ∃ batch ∈ batches, ∃ twin ∈ batch,
      twin.fields = candidate.fields) :
    ∃ decision, Completes digests policy tables facts nowUnixMs candidates decision := by
  obtain ⟨first, listed⟩ := exists_mem_of_ne_nil batches nonempty
  obtain ⟨_, completes⟩ := each first listed
  obtain ⟨lists, ready, canonical, -⟩ := completes.ready
  refine completes_of_settles ready set (checkCanonical_nil canonical) fun candidate inside => ?_
  obtain ⟨batch, within, twin, found, same⟩ := twins candidate inside
  obtain ⟨_, own⟩ := each batch within
  obtain ⟨others, also, -, settled⟩ := own.ready
  obtain rfl : others = lists := ok.inj (also.lists.symm.trans ready.lists)
  obtain ⟨settles, canonical⟩ := settled twin found
  exact ⟨(scoreOf_renamed settles same.symm).1, canonical_renamed same.symm canonical⟩

end Union

end Selection

namespace Scan

open Selection List

namespace ScanSession

variable {session : ScanSession}

/-- The decision over the members answers once the pinned inputs are readable, unless the members
are too many for a record. -/
theorem Reached.decides {state : ScanState} (reached : session.Reached state) {pinned}
    (pin : session.evaluateCandidates [] = .ok pinned) (known : pinned.outcome.isUnknown = false) :
    (∃ decision, session.decide state = .ok decision ∧ decision.outcome.isUnknown = false) ∨
      session.decide state = .error (.candidateBudgetExceeded (firstSeenOrder state).length) := by
  obtain ⟨lists, ready, bare, -⟩ := Completes.ready ⟨evaluateCandidates_ok pin, known⟩
  by_cases budget : (firstSeenOrder state).length ≤ scanProjectionMaxCandidates
  · left
    have short : ((firstSeenOrder state).map (·.index)).length ≤ scanProjectionMaxCandidates := by
      rwa [length_map]
    obtain ⟨decision, answer, decided⟩ := completes_of_settles ready
      (@checkCandidateSet_members session state _ short) bare (reached.members_settle ready)
    refine ⟨decision, ?_, decided⟩
    simp only [ScanSession.decide, Except.bind_ok_iff]
    refine ⟨_, numberedMembers_ok budget, decision, ?_, ?_⟩
    · rw [evaluateCandidates, answer]
      rfl
    cases outcome : decision.outcome with
    | unknown reason detail =>
      rw [outcome] at decided
      cases decided
    | selected | empty | insufficient | ambiguous => rfl
  · right
    simp only [ScanSession.decide, numberedMembers]
    rw [if_pos (by omega)]
    rfl

end ScanSession

/-- Candidates that complete in batches complete together, under any distinct identifiers, unless
they are too many; each has the status and score it had in its batch. The decision of a scan whose
pinned inputs were readable answers, unless the members are too many for a record. -/
theorem batches_complete_together :
    (∀ (digests : Digests) (policy : SelectionPolicy) (tables : SelectionTables)
      (facts : SelectionFactSnapshot) (nowUnixMs : Nat) (batches : List (List Candidate))
      (union : List Candidate), batches ≠ [] →
      (∀ batch ∈ batches, ∃ decision,
        Completes digests policy tables facts nowUnixMs batch decision) →
      union.length ≤ maxCandidates →
      (∀ candidate ∈ union, candidate.candidateId.isEmpty = false) →
      (union.map (·.candidateId)).Nodup →
      (∀ candidate ∈ union, ∃ batch ∈ batches, ∃ twin ∈ batch,
        twin.fields = candidate.fields) →
      ∃ decision, Completes digests policy tables facts nowUnixMs union decision ∧
        decision.candidates.map (·.candidateId) = union.map (·.candidateId) ∧
        ∀ batch ∈ batches, ∀ own, Completes digests policy tables facts nowUnixMs batch own →
          ∀ candidate ∈ union, ∀ twin ∈ batch, twin.fields = candidate.fields →
            ∀ verdict ∈ decision.candidates, verdict.candidateId = candidate.candidateId →
              ∀ before ∈ own.candidates, before.candidateId = twin.candidateId →
                before.status = verdict.status ∧ before.scoreMilli = verdict.scoreMilli) ∧
    ∀ (session : ScanSession) (pinned : SelectionDecision) (state : ScanState),
      session.evaluateCandidates [] = .ok pinned → pinned.outcome.isUnknown = false →
      session.Run .initial state →
        (∃ decision, session.decide state = .ok decision ∧ decision.outcome.isUnknown = false) ∨
          session.decide state =
            .error (.candidateBudgetExceeded (ScanSession.firstSeenOrder state).length) := by
  constructor
  · intro digests policy tables facts nowUnixMs batches union nonempty each short named distinct
      twins
    have set : checkCandidateSet union = .ok () :=
      checkCandidateSet_ok_iff.mpr ⟨short, named, distinct⟩
    obtain ⟨decision, completes⟩ := completes_union nonempty each set twins
    refine ⟨decision, completes, evaluate_ids completes.1 completes.2, ?_⟩
    intro batch _ own also candidate inside twin within same verdict listed name
      before listed' name'
    -- Two evaluations of one world say the same of a candidate, whatever it is called.
    obtain ⟨lists, ready, -⟩ := completes.ready
    obtain ⟨settled, ranked, settles, annotates⟩ := completes.verdict ready listed inside name
    obtain ⟨settled', ranked', settles', annotates'⟩ := also.verdict ready listed' within name'
    have equal := Except.ok.inj (settles'.symm.trans (assess_renamed same settles))
    obtain ⟨rfl, -⟩ := Assessment.settled.inj equal
    exact ⟨annotates'.status.trans annotates.status.symm,
      annotates'.scoreMilli.trans annotates.scoreMilli.symm⟩
  · intro session pinned state pin known run
    exact (ScanSession.Run.reached run ScanSession.reached_initial).1.decides pin known

namespace Sample

open Selection.Sample

/-- A card of the other member, at level 10. -/
def rival (candidateId : String) (ready : Bool) : Candidate where
  candidateId := candidateId
  fields := .ofList [("member", ScalarValue.string "member-b"),
    ("level", ScalarValue.integer 10), ("ready", ScalarValue.boolean ready)]

def batches : List (List Candidate) :=
  [[levelCandidate, rival "level#01" true], [rival "level#00" false]]

/-- The cards of both batches, under other identifiers. -/
def union : List Candidate :=
  [rival "card#07" false, ⟨"card#08", levelCandidate.fields⟩, rival "card#09" true]

lemma first_completes : ∃ own, Completes digests levelPolicy noTables noFacts 0
      [levelCandidate, rival "level#01" true] own ∧
    ∃ verdict ∈ own.candidates, verdict.candidateId = "level#01" ∧ verdict.status = .ranked ∧
      verdict.scoreMilli = some (-10) :=
  ⟨_, ⟨rfl, rfl⟩, _, mem_cons_of_mem _ mem_cons_self, rfl, rfl, rfl⟩

lemma second_completes : ∃ own, Completes digests levelPolicy noTables noFacts 0
      [rival "level#00" false] own ∧
    ∃ verdict ∈ own.candidates, verdict.candidateId = "level#00" ∧
      verdict.status = .gateRejected ∧ verdict.scoreMilli = none :=
  ⟨_, ⟨rfl, rfl⟩, _, mem_cons_self, rfl, rfl, rfl⟩

/-- Two batches complete, and so do their cards together, under other identifiers, each with the
verdict of its batch; and a scan of four cards decides. -/
theorem level_batches_complete :
    (∃ decision, Completes digests levelPolicy noTables noFacts 0 union decision ∧
      decision.candidates.map (·.candidateId) = ["card#07", "card#08", "card#09"] ∧
      ∀ verdict ∈ decision.candidates,
        (verdict.candidateId = "card#07" →
          verdict.status = .gateRejected ∧ verdict.scoreMilli = none) ∧
        (verdict.candidateId = "card#09" →
          verdict.status = .ranked ∧ verdict.scoreMilli = some (-10))) ∧
    ∃ decision, levelSession.decide (moreCards 3) = .ok decision ∧
      decision.outcome.isUnknown = false := by
  obtain ⟨together, scan⟩ := batches_complete_together
  constructor
  · obtain ⟨first, own, before, listed, named, status, score⟩ := first_completes
    obtain ⟨second, also, before', listed', named', status', score'⟩ := second_completes
    obtain ⟨decision, completes, ids, same⟩ := together digests levelPolicy noTables noFacts 0
      batches union (by simp [batches])
      (forall_mem_cons.mpr ⟨⟨first, own⟩, forall_mem_singleton.mpr ⟨second, also⟩⟩)
      (by decide) (by decide +kernel) (by decide)
      (by
        refine forall_mem_cons.mpr ⟨⟨_, mem_cons_of_mem _ mem_cons_self, _, mem_cons_self, rfl⟩, ?_⟩
        refine forall_mem_cons.mpr ⟨⟨_, mem_cons_self, _, mem_cons_self, rfl⟩, ?_⟩
        exact forall_mem_singleton.mpr
          ⟨_, mem_cons_self, _, mem_cons_of_mem _ mem_cons_self, rfl⟩)
    refine ⟨decision, completes, ids, fun verdict inside => ⟨fun name => ?_, fun name => ?_⟩⟩
    · have alike := same _ (mem_cons_of_mem _ mem_cons_self) second also _ mem_cons_self _
        mem_cons_self rfl verdict inside name before' listed' named'
      exact ⟨alike.1.symm.trans status', alike.2.symm.trans score'⟩
    · have alike := same _ mem_cons_self first own _
        (mem_cons_of_mem _ (mem_cons_of_mem _ mem_cons_self)) _ (mem_cons_of_mem _ mem_cons_self)
        rfl verdict inside name before listed named
      exact ⟨alike.1.symm.trans status, alike.2.symm.trans score⟩
  · have run := one_card.trans (@more_cards 3 (by decide +kernel)).run
    refine (scan levelSession _ (moreCards 3) rfl rfl run).resolve_right ?_
    decide +kernel

/-- One card under as many identifiers as wanted. -/
def card (number : Nat) : Candidate :=
  ⟨String.ofList (replicate (number + 1) 'a'), levelCandidate.fields⟩

lemma card_injective : Function.Injective fun number => (card number).candidateId := by
  intro a b same
  have lengths := congrArg length (String.ofList_injective same)
  simpa using lengths

lemma cards_complete {numbers : List Nat} (distinct : numbers.Nodup)
    (short : numbers.length ≤ maxCandidates) :
    ∃ decision, Completes digests levelPolicy noTables noFacts 0 (numbers.map card) decision := by
  have ready : Ready digests levelPolicy noTables noFacts 0 [] := ⟨rfl, rfl, ⟨_, rfl⟩, rfl⟩
  have settles : Settles levelPolicy (.new levelPolicy noFacts [] noTables 0) levelCandidate :=
    ⟨_, _, rfl⟩
  have canonical : Canonical levelPolicy noTables noFacts 0 levelCandidate := rfl
  refine completes_of_settles ready ?_ rfl fun candidate listed => ?_
  · refine checkCandidateSet_ok_iff.mpr ⟨by simpa using short, ?_, ?_⟩
    · intro candidate listed
      obtain ⟨number, -, rfl⟩ := mem_map.mp listed
      simp [card, replicate_succ]
    · rw [map_map]
      exact distinct.map card_injective
  · obtain ⟨number, -, rfl⟩ := mem_map.mp listed
    have same : (card number).fields = levelCandidate.fields := rfl
    exact ⟨(scoreOf_renamed settles same).1, canonical_renamed same canonical⟩

/-- Two batches of 2049 cards complete, and the 4098 cards together are refused; and where there is
no batch at all, nothing says that the document is valid. -/
theorem batches_too_many_together :
    ((∃ decision, Completes digests levelPolicy noTables noFacts 0
      ((range' 0 2049).map card) decision) ∧
    (∃ decision, Completes digests levelPolicy noTables noFacts 0
      ((range' 2049 2049).map card) decision) ∧
    (((range' 0 2049).map card ++ (range' 2049 2049).map card).map
      (·.candidateId)).Nodup ∧
    ∀ decision, evaluateWithTables digests levelPolicy noTables
      ((range' 0 2049).map card ++ (range' 2049 2049).map card) noFacts 0 ≠
        .ok decision) ∧
    ∀ decision, evaluateWithTables digests { levelPolicy with schemaVersion := "" } noTables []
      noFacts 0 ≠ .ok decision := by
  refine ⟨⟨cards_complete nodup_range' (by simp [maxCandidates]),
    cards_complete nodup_range' (by simp [maxCandidates]), ?_, ?_⟩, ?_⟩
  · rw [← map_append, map_map]
    have joined : range' 0 2049 ++ range' 2049 2049 = range' 0 4098 :=
      range'_append_1
    rw [joined]
    exact Nodup.map card_injective nodup_range'
  · intro decision answer
    obtain ⟨_, admitted⟩ := admitted_of_evaluate answer
    have short := (checkCandidateSet_ok_iff.mp admitted.set).1
    simp [maxCandidates] at short
  · intro decision answer
    cases answer

end Sample

end Scan
