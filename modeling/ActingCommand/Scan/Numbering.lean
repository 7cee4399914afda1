import ActingCommand.Scan.Positions

/-!
# The decision over the members of a run

The decision numbers at most 64 positions in first-seen order, and their identifiers
stand in the order of their numbers. Every numbered position settles under its new
identifier with the score its viewport gave it, so the decision chooses the member that
ranks first.
-/

namespace Scan

open Selection Machine Std List Option Except

/-! ## Identifiers of members -/

lemma append_lt_append_iff (front a b : List Char) : front ++ a < front ++ b ↔ a < b := by
  induction front with
  | nil => rfl
  | cons c rest ih => simp [ih]

lemma compare_append_left (front a b : String) :
    compare (front ++ a) (front ++ b) = compare a b := by
  have less : front ++ a < front ++ b ↔ a < b := by
    rw [String.lt_iff, String.lt_iff, String.toList_append, String.toList_append,
      append_lt_append_iff]
  have same : front ++ a = front ++ b ↔ a = b := by
    constructor
    · intro equal
      have lists := congrArg String.toList equal
      rw [String.toList_append, String.toList_append] at lists
      exact String.toList_inj.mp (append_cancel_left lists)
    · rintro rfl
      rfl
  change compareOfLessAndEq _ _ = compareOfLessAndEq _ _
  simp [compareOfLessAndEq, less, same]

/-- Two digits are enough for the numbers of at most 64 members. -/
theorem compare_padded : ∀ i < 64, ∀ j < 64,
    compare (ScanSession.padded 2 i) (ScanSession.padded 2 j) = compare i j := by
  decide +kernel

namespace ScanSession

variable {session : ScanSession}

variable {i j : Nat}

lemma compare_memberId (left : i < 64) (right : j < 64) :
    compare (session.memberId i) (session.memberId j) = compare i j := by
  rw [memberId, memberId, compare_append_left, compare_padded i left j right]

lemma memberId_inj (left : i < 64) (right : j < 64)
    (same : session.memberId i = session.memberId j) : i = j := by
  have equal : compare (session.memberId i) (session.memberId j) = .eq := by
    rw [same]
    exact ReflCmp.compare_self
  exact LawfulEqCmp.eq_of_compare ((compare_memberId left right).symm.trans equal)

lemma memberId_nonempty (number : Nat) : (session.memberId number).isEmpty = false := by
  rw [memberId, String.isEmpty_eq_false_iff]
  intro empty
  have length := congrArg String.length empty
  simp [String.length_append] at length

/-! ## First-seen order -/

instance : TransCmp FirstSeen.cmp :=
  inferInstanceAs (TransCmp (compareLex (compareOn FirstSeen.viewport)
    (compareLex (compareOn FirstSeen.axis)
      (compareLex (compareOn FirstSeen.cross) (compareOn FirstSeen.index)))))

variable {a b : FirstSeen}

lemma index_of_cmp (same : a.cmp b = .eq) : a.index = b.index := by
  simp only [FirstSeen.cmp, Ordering.then_eq_eq] at same
  exact LawfulEqCmp.eq_of_compare same.2.2.2

lemma cmp_of_viewport (earlier : a.viewport < b.viewport) : a.cmp b = .lt := by
  have first : compare a.viewport b.viewport = .lt := Nat.compare_eq_lt.mpr earlier
  rw [FirstSeen.cmp, first]
  rfl

variable {position : Position} {index : Nat} {seen : FirstSeen}

lemma numbered_index (found : numbered position index = some seen) : seen.index = index := by
  unfold numbered at found
  split at found
  · exact (some.inj found) ▸ rfl
  · exact (some.inj found) ▸ rfl
  · cases found

variable {state : ScanState}

lemma mem_firstSeenOrder :
    seen ∈ firstSeenOrder state ↔ ∃ position, state.positions[seen.index]? = some position ∧
      numbered position seen.index = some seen := by
  rw [firstSeenOrder, (perm_insertionSort _ _).mem_iff, mem_filterMap]
  constructor
  · rintro ⟨⟨position, index⟩, listed, found⟩
    have held := mem_zipIdx_iff_getElem?.mp listed
    have same := numbered_index found
    simp only at found held same
    subst same
    exact ⟨position, held, found⟩
  · rintro ⟨position, held, found⟩
    exact ⟨(position, seen.index), mem_zipIdx_iff_getElem?.mpr held, found⟩

/-- The numbered positions are strictly ordered by where they were first seen. -/
theorem firstSeenOrder_strict (state : ScanState) :
    (firstSeenOrder state).Pairwise fun a b => a.cmp b = .lt := by
  have ordered := pairwise_insertionSort (fun a b : FirstSeen => (a.cmp b).isLE = true)
    (state.positions.zipIdx.filterMap fun entry => numbered entry.1 entry.2)
  have distinct : (firstSeenOrder state).Pairwise fun a b => a.index ≠ b.index := by
    have indices : (state.positions.zipIdx.filterMap fun entry =>
        numbered entry.1 entry.2).Pairwise fun a b => a.index ≠ b.index := by
      rw [pairwise_filterMap]
      have rising : state.positions.zipIdx.Pairwise fun a b => a.2 ≠ b.2 := by
        have nodup : (state.positions.zipIdx.map Prod.snd).Nodup := by
          rw [zipIdx_map_snd]
          exact nodup_range'
        exact pairwise_map.mp nodup
      refine rising.imp fun apart seen found other also => ?_
      rw [numbered_index found, numbered_index also]
      exact apart
    exact (perm_insertionSort _ _).pairwise_iff (fun apart => apart.symm) |>.mpr indices
  refine (ordered.and distinct).imp fun {a b} both => ?_
  rcases Ordering.isLE_iff_eq_lt_or_eq_eq.mp both.1 with before | same
  · exact before
  · exact absurd (index_of_cmp same) both.2

lemma cmp_eq_compare (left : (firstSeenOrder state)[i]? = some a)
    (right : (firstSeenOrder state)[j]? = some b) : a.cmp b = compare i j := by
  have strict := pairwise_iff_getElem.mp (firstSeenOrder_strict state)
  obtain ⟨inside, rfl⟩ := List.getElem?_eq_some_iff.mp left
  obtain ⟨within, rfl⟩ := List.getElem?_eq_some_iff.mp right
  rcases Nat.lt_trichotomy i j with less | same | more
  · rw [strict i j inside within less, Nat.compare_eq_lt.mpr less]
  · subst same
    have seen : FirstSeen.cmp (firstSeenOrder state)[i] (firstSeenOrder state)[i] = .eq :=
      ReflCmp.compare_self
    have number : compare i i = .eq := ReflCmp.compare_self
    rw [seen, number]
  · have after := strict j i within inside more
    rw [@OrientedCmp.eq_swap _ FirstSeen.cmp, after, Nat.compare_eq_gt.mpr more]
    rfl

/-! ## The numbered positions -/

variable {lists : ListIndex}

lemma Pinned.unique {others} (pinned : session.Pinned lists)
    (also : session.Pinned others) : lists = others :=
  ok.inj (pinned.lists.symm.trans also.lists)

lemma numbered_fixed (found : numbered position index = some seen) :
    ∃ features verdict, position.state = .fixed seen.viewport features (some verdict) ∧
      position.fields = candidateFields features ∧
      ∀ scored, verdict.Reports scored → scored = position.memberScore := by
  obtain ⟨_, rect, _, _, _, _, state⟩ := position
  match state with
  | .fixed viewport features (some (.member scoreMilli)) =>
    obtain rfl := some.inj found
    exact ⟨features, .member scoreMilli, rfl, rfl, fun scored reports => reports.1.symm⟩
  | .fixed viewport features (some .staticTableDrop) =>
    obtain rfl := some.inj found
    exact ⟨features, .staticTableDrop, rfl, rfl, fun scored reports => reports⟩

/-- A numbered position settles under every identifier, with the score its verdict reports. -/
theorem Reached.settles (reached : session.Reached state) (pinned : session.Pinned lists)
    (listed : seen ∈ firstSeenOrder state) (candidateId : String) :
    ∃ position, state.positions[seen.index]? = some position ∧
      numbered position seen.index = some seen ∧
      Settles session.policy (session.resolver lists) ⟨candidateId, position.fields⟩ ∧
      Canonical session.policy session.tables session.facts session.nowUnixMs
        ⟨candidateId, position.fields⟩ ∧
      scoreOf session.policy (session.resolver lists) ⟨candidateId, position.fields⟩ =
        position.memberScore := by
  obtain ⟨position, held, found⟩ := mem_firstSeenOrder.mp listed
  obtain ⟨features, verdict, fixed, fields, score⟩ := numbered_fixed found
  obtain ⟨others, also, settles, canonical, reports⟩ :=
    reached.1 position (mem_of_getElem? held) _ features verdict fixed
  obtain rfl := pinned.unique also
  have same : (⟨candidateId, position.fields⟩ : Candidate).fields = (unnamed features).fields :=
    fields
  obtain ⟨renamed, scored⟩ := scoreOf_renamed settles same
  exact ⟨position, held, found, renamed, canonical_renamed same canonical,
    scored.trans (score _ reports)⟩

variable (session state) in
def memberCandidate (number : Nat)
    (seen : FirstSeen) : Candidate :=
  ⟨session.memberId number, memberFields state seen.index⟩

lemma mem_memberCandidates {candidate} :
    candidate ∈ session.memberCandidates state ((firstSeenOrder state).map (·.index)) ↔
      ∃ number seen, (firstSeenOrder state)[number]? = some seen ∧
        candidate = session.memberCandidate state number seen := by
  simp only [memberCandidates, List.mem_map, Prod.exists, mem_zipIdx_iff_getElem?,
    getElem?_map, map_eq_some_iff]
  constructor
  · rintro ⟨_, number, ⟨seen, found, rfl⟩, rfl⟩
    exact ⟨number, seen, found, rfl⟩
  · rintro ⟨number, seen, found, rfl⟩
    exact ⟨_, number, ⟨seen, found, rfl⟩, rfl⟩

lemma memberCandidates_ids (state : ScanState) (members : List Nat) :
    (session.memberCandidates state members).map (·.candidateId) =
      (List.range members.length).map session.memberId := by
  rw [memberCandidates, List.map_map]
  change members.zipIdx.map (session.memberId ∘ Prod.snd) = _
  rw [← List.map_map, zipIdx_map_snd, range_eq_range']

lemma memberCandidates_distinct {state members}
    (budget : members.length ≤ scanProjectionMaxCandidates) :
    ((session.memberCandidates state members).map (·.candidateId)).Nodup := by
  rw [memberCandidates_ids]
  refine List.Nodup.map_on (fun i left j right same => ?_) nodup_range
  rw [mem_range] at left right
  unfold scanProjectionMaxCandidates at budget
  exact memberId_inj (by omega) (by omega) same

lemma checkCandidateSet_members {state members}
    (budget : members.length ≤ scanProjectionMaxCandidates) :
    checkCandidateSet (session.memberCandidates state members) = .ok () := by
  have length : (session.memberCandidates state members).length = members.length := by
    simp [memberCandidates]
  refine checkCandidateSet_ok_iff.mpr ⟨?_, fun candidate listed => ?_,
    memberCandidates_distinct budget⟩
  · unfold scanProjectionMaxCandidates at budget
    rw [length]
    unfold maxCandidates
    omega
  · simp only [memberCandidates, List.mem_map] at listed
    obtain ⟨_, -, rfl⟩ := listed
    exact memberId_nonempty _

variable (session lists) in
/-- The members as the decision ranks them. -/
def memberScores (state : ScanState) : List Scored :=
  scoredOf session.policy (session.resolver lists)
    (session.memberCandidates state ((firstSeenOrder state).map (·.index)))

lemma memberFields_eq (held : state.positions[index]? = some position) :
    memberFields state index = position.fields := by
  rw [memberFields, held]
  rfl

lemma Reached.mem_memberScores (reached : session.Reached state) (pinned : session.Pinned lists)
    {candidate} {scoreMilli : Int} :
    (candidate, scoreMilli) ∈ session.memberScores lists state ↔
      ∃ number seen position, (firstSeenOrder state)[number]? = some seen ∧
        state.positions[seen.index]? = some position ∧
        numbered position seen.index = some seen ∧ position.memberScore = some scoreMilli ∧
        candidate = ⟨session.memberId number, position.fields⟩ := by
  rw [memberScores, mem_scoredOf, mem_memberCandidates]
  constructor
  · rintro ⟨⟨number, seen, found, rfl⟩, scored⟩
    obtain ⟨position, held, known, -, -, score⟩ :=
      reached.settles pinned (mem_of_getElem? found) (session.memberId number)
    rw [memberCandidate, memberFields_eq held] at scored ⊢
    exact ⟨number, seen, position, found, held, known, score.symm.trans scored, rfl⟩
  · rintro ⟨number, seen, position, found, held, known, scored, rfl⟩
    obtain ⟨other, also, -, -, -, score⟩ :=
      reached.settles pinned (mem_of_getElem? found) (session.memberId number)
    obtain rfl : position = other := some.inj (held.symm.trans also)
    refine ⟨⟨number, seen, found, ?_⟩, score.trans scored⟩
    rw [memberCandidate, memberFields_eq held]

/-! ## The decision -/

/-- What admission requires of a scan's document: one candidate, and the identifier, lowest first,
as the last key. -/
structure Admitted (policy : SelectionPolicy) : Prop where
  one : policy.selection.requiredCount = 1
  lastKey : policy.tieBreak.getLast? = some (.candidateId .lowestFirst)

lemma numberedMembers_ok (budget : (firstSeenOrder state).length ≤ scanProjectionMaxCandidates) :
    numberedMembers state = .ok ((firstSeenOrder state).map (·.index)) := by
  simp only [numberedMembers]
  rw [if_neg (by omega)]
  rfl

/-- Every member settles, under its number. -/
theorem Reached.members_settle (reached : session.Reached state) (pinned : session.Pinned lists) :
    ∀ candidate ∈ session.memberCandidates state ((firstSeenOrder state).map (·.index)),
      Settles session.policy (session.resolver lists) candidate ∧
        Canonical session.policy session.tables session.facts session.nowUnixMs candidate := by
  intro candidate listed
  obtain ⟨number, seen, found, rfl⟩ := mem_memberCandidates.mp listed
  obtain ⟨position, held, -, settles, canonical, -⟩ :=
    reached.settles pinned (mem_of_getElem? found) (session.memberId number)
  rw [memberCandidate, memberFields_eq held]
  exact ⟨settles, canonical⟩

/-- The decision chooses the member that ranks first. -/
theorem Reached.decide_leads (reached : session.Reached state) (pinned : session.Pinned lists)
    (admitted : Admitted session.policy)
    (budget : (firstSeenOrder state).length ≤ scanProjectionMaxCandidates) {top : Scored}
    (leads : Leads session.policy (session.resolver lists) (session.memberScores lists state) top) :
    ∃ decision, session.decide state = .ok decision ∧ decision.outcome = .selected 1 ∧
      decision.selected = [top.1.candidateId] := by
  have short : ((firstSeenOrder state).map (·.index)).length ≤ scanProjectionMaxCandidates := by
    rwa [length_map]
  have inside := (mem_scoredOf.mp leads.1).1
  have each := reached.members_settle pinned
  obtain ⟨header, reasons, verdicts, answer⟩ := evaluate_settled pinned
    (checkCandidateSet_members short)
    ((checkCanonical_ok_iff_each (ne_nil_of_mem inside)).mpr fun candidate own =>
      (each candidate own).2)
    fun candidate own => (each candidate own).1
  have distinct : ((session.memberScores lists state).map
      fun entry => entry.1.candidateId).Nodup := by
    have all := @memberCandidates_distinct session state _ short
    rw [List.Nodup, pairwise_map] at all ⊢
    rw [memberScores, scoredOf, pairwise_filterMap]
    refine all.imp fun apart scored found other also => ?_
    obtain ⟨_, -, rfl⟩ := map_eq_some_iff.mp found
    obtain ⟨_, -, rfl⟩ := map_eq_some_iff.mp also
    exact apart
  obtain ⟨outcome, selected⟩ := @decideSurvivors_leads session.policy (session.resolver lists)
    header reasons verdicts _ top .lowestFirst admitted.one
    (mem_of_getLast? admitted.lastKey) distinct leads
  refine ⟨_, ?_, outcome, selected⟩
  simp only [ScanSession.decide, bind_ok_iff]
  refine ⟨_, numberedMembers_ok budget, decideSurvivors session.policy header reasons verdicts
    ((session.memberScores lists state).map (rankedOf session.policy (session.resolver lists))),
    ?_, ?_⟩
  · rw [evaluateCandidates, answer]
    rfl
  · rw [outcome]
    rfl

theorem chosenPosition_eq {decision} {number : Nat}
    (budget : (firstSeenOrder state).length ≤ scanProjectionMaxCandidates)
    (found : (firstSeenOrder state)[number]? = some seen)
    (selected : decision.selected = [session.memberId number]) :
    session.chosenPosition state decision = some seen.index := by
  obtain ⟨bound, -⟩ := List.getElem?_eq_some_iff.mp found
  have listed : (seen.index, number) ∈ ((firstSeenOrder state).map (·.index)).zipIdx := by
    rw [mem_zipIdx_iff_getElem?, getElem?_map, found]
    rfl
  simp only [chosenPosition, selected, numberedMembers_ok budget]
  cases search : ((firstSeenOrder state).map (·.index)).zipIdx.find?
      fun entry => session.memberId entry.2 = session.memberId number with
  | none =>
    have missed := find?_eq_none.mp search (seen.index, number) listed
    simp at missed
  | some entry =>
    have same : session.memberId entry.2 = session.memberId number := by
      simpa using find?_some search
    have held := mem_zipIdx_iff_getElem?.mp (mem_of_find?_eq_some search)
    have inside : entry.2 < (firstSeenOrder state).length := by
      simpa using (List.getElem?_eq_some_iff.mp held).1
    unfold scanProjectionMaxCandidates at budget
    have number : entry.2 = number := memberId_inj (by omega) (by omega) same
    rw [number, getElem?_map, found] at held
    exact held.symm

end ScanSession

end Scan
