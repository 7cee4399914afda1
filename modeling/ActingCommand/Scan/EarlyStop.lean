import ActingCommand.Scan.Numbering
import ActingCommand.Selection.BoundSound

/-!
# Stopping early does not change the decision

A member that a later viewport fixes scores at most the bound over the whole domain and is
numbered after every member fixed before it. When the early-stop test holds, it therefore ranks
behind the best member so far.
-/

namespace Scan

open Selection Machine Std List Option Except

variable {position : Position}

namespace ScanSession

variable {session : ScanSession} {stop : EarlyStop}

/-! ## Readings inside the domains -/

variable (session stop) in
/-- The reading is one the bound is about: its identity is one of the layout's, and every field of
the document is known and inside its domain. -/
structure InDomain (features : CandidateFeatureMap) :
    Prop where
  identity : ∃ identity ∈ stop.identities,
    features[session.identityFeature]? = some (.identity identity)
  fields : ∀ declaration ∈ session.policy.fields, ∃ domain value,
    stop.fieldDomains[declaration.name]? = some domain ∧
      (features[declaration.name]?.bind (·.knownValue)) = some value ∧ domain.Holds value

lemma candidateFields_getElem? (features : CandidateFeatureMap) (name : String) :
    (candidateFields features)[name]? = features[name]?.bind (·.knownValue) := by
  rw [candidateFields, Std.ExtTreeMap.getElem?_filterMap, pbind_eq_bind]

/-- Only the field of the identity feature takes its value from the identity. -/
theorem fieldDomains_identity {layout identityFeature declarations domains result}
    (answer : fieldDomains layout identityFeature declarations domains = .ok result)
    (before : ∀ name : String, domains[name]? = some FieldDomain.identity →
      some name = identityFeature) :
    ∀ name : String, result[name]? = some FieldDomain.identity → some name = identityFeature := by
  induction declarations generalizing domains with
  | nil => exact ok.inj answer ▸ before
  | cons declaration rest ih =>
    simp only [fieldDomains, bind_ok_iff, okOr_ok_iff] at answer
    obtain ⟨feature, found, domain, own, answer⟩ := answer
    refine ih answer fun name held => ?_
    rw [Std.ExtTreeMap.getElem?_insert] at held
    split at held
    · rename_i same
      obtain rfl : domain = .identity := some.inj held
      obtain rfl : declaration.name = name := LawfulEqCmp.eq_of_compare same
      have named : feature.name = declaration.name := by simpa using find?_some found
      unfold featureDomain at own
      cases value : feature.value with
      | identity =>
        rw [value] at own
        simp only at own
        split at own
        · rw [← named]
          assumption
        · cases own
      | passed | measureMilli | anchorMilli =>
        rw [value] at own
        cases own
      | ocrInteger =>
        rw [value] at own
        simp only [bind_ok_iff] at own
        obtain ⟨_, -, _, -, _, -, own⟩ := own
        cases own
    · exact before name held

/-- What the session's construction answers for the early-stop test. -/
theorem earlyStopInputs_ok {identityFeature : String} {layout policy tables facts}
    {nowUnixMs : Nat}
    (answer : earlyStopInputs identityFeature layout policy tables facts nowUnixMs = .ok stop) :
    (∀ name : String, stop.fieldDomains[name]? = some FieldDomain.identity →
        name = identityFeature) ∧
      (∃ bound, upperBoundWithTables policy tables facts nowUnixMs stop.identities
        stop.fieldDomains = .ok bound ∧ stop.unseen = .ofUpperBound bound) ∧
      (stop.firstKeyLowestId = true →
        policy.tieBreak.head? = some (.candidateId .lowestFirst)) := by
  unfold earlyStopInputs at answer
  cases inputs : boundInputs layout policy (some identityFeature) with
  | error detail =>
    rw [inputs] at answer
    cases answer
  | ok found =>
    obtain ⟨domains, identities⟩ := found
    rw [inputs] at answer
    cases bounds : upperBoundWithTables policy tables facts nowUnixMs identities domains with
    | error error =>
      simp only [pure_bind, bounds] at answer
      cases answer
    | ok bound =>
      simp only [pure_bind, bounds] at answer
      obtain rfl := ok.inj answer
      refine ⟨fun name held => ?_, ⟨bound, bounds, rfl⟩, fun first => by simpa using first⟩
      simp only [boundInputs, bind_ok_iff, okOr_ok_iff] at inputs
      obtain ⟨built, own, _, -, same⟩ := inputs
      obtain ⟨rfl, -⟩ := Prod.mk.inj (ok.inj same)
      exact some.inj (fieldDomains_identity own (by simp) name held)

variable (session stop) in
/-- What the session's construction checks and pins. -/
structure Opened : Prop where
  admitted : Admitted session.policy
  declared : session.earlyStop = some stop
  inputs : earlyStopInputs session.identityFeature session.layout session.policy session.tables
    session.facts session.nowUnixMs = .ok stop

lemma InDomain.fits (opened : Opened session stop) {features}
    (reading : session.InDomain stop features) (candidateId : String) :
    ∃ identity ∈ stop.identities, Fits session.policy stop.fieldDomains identity
      ⟨candidateId, candidateFields features⟩ := by
  obtain ⟨named, ⟨bound, answer, -⟩, -⟩ := earlyStopInputs_ok opened.inputs
  have describes := describes_of_upperBound answer
  obtain ⟨identity, listed, read⟩ := reading.identity
  refine ⟨identity, listed, fun declaration declared enumerated => ?_,
    fun declaration declared _ => ?_⟩
  · -- An enumerated field takes its values from the identity, so it is the identity feature.
    obtain ⟨domain, held, describe⟩ := describes declaration declared
    obtain rfl : domain = .identity := by
      cases type : declaration.valueType with
      | enumString allowed =>
        rw [type] at describe
        cases domain with
        | identity => rfl
        | boolean | integer => exact describe.elim
      | boolean | integer | recordList =>
        rw [type] at enumerated
        cases enumerated
    have name := named declaration.name held
    rw [candidateFields_getElem?, name, read]
    rfl
  · obtain ⟨domain, value, held, known, inside⟩ := reading.fields declaration declared
    exact ⟨domain, value, held, by rw [candidateFields_getElem?, known], inside⟩

/-! ## The best member -/

variable {score : Int}

lemma Bound.le_of_covers {bound} {best : Int} (covers : bound.Covers score)
    (test : (Bound.ofUpperBound bound).lt (.max best) = true ∨
      Bound.ofUpperBound bound = .max best) :
    score < best ∨ score ≤ best ∧ Bound.ofUpperBound bound = .max best := by
  cases bound with
  | noneEligible => exact covers.elim
  | max milli =>
    rcases test with below | equal
    · have less : milli < best := by simpa [Bound.ofUpperBound, Bound.lt] using below
      have most : score ≤ milli := covers
      exact Or.inl (by omega)
    · have same : milli = best := by simpa [Bound.ofUpperBound] using equal
      exact Or.inr ⟨same ▸ covers, equal⟩
  | unbounded => rcases test with below | equal <;> simp_all [Bound.ofUpperBound, Bound.lt]

/-- What the early-stop test says of the members and of the bound over the whole domain. -/
theorem earlyStopHolds_true {state} (declared : session.earlyStop = some stop)
    (holds : session.earlyStopHolds state = .ok true) :
    ∃ best, (∃ position ∈ state.positions, position.memberScore = some best) ∧
      (stop.unseen.lt (.max best) = true ∨
        stop.unseen = .max best ∧ stop.firstKeyLowestId = true) := by
  unfold earlyStopHolds at holds
  rw [declared] at holds
  cases members : (state.positions.filterMap (·.memberScore)).max? with
  | none =>
    rw [members] at holds
    cases holds
  | some best =>
    rw [members] at holds
    simp only [bind_ok_iff] at holds
    obtain ⟨unknown, -, holds⟩ := holds
    have both := ok.inj holds
    simp only [Bool.and_eq_true, Bool.or_eq_true, decide_eq_true_eq] at both
    have inside := max?_mem members
    obtain ⟨position, listed, scored⟩ := mem_filterMap.mp inside
    exact ⟨best, ⟨position, listed, scored⟩, both.2⟩

/-! ## How the list may go on -/

variable (session stop) in
/-- How the list may go on: the members stay as they are, and every member that a later viewport
fixes has a reading inside the domains. -/
structure Continues (state last : ScanState) :
    Prop where
  run : session.Run state last
  kept : ∀ (index : Nat) (position : Position) viewport features scoreMilli,
    state.positions[index]? = some position →
    position.state = .fixed viewport features (some (.member scoreMilli)) →
      ∃ later : Position, last.positions[index]? = some later ∧ later.state = position.state
  inDomain : ∀ position ∈ last.positions, ∀ viewport features scoreMilli,
    position.state = .fixed viewport features (some (.member scoreMilli)) →
      state.viewports.length ≤ viewport → session.InDomain stop features

lemma state_of_memberScore (scored : position.memberScore = some score) :
    ∃ viewport features,
      position.state = .fixed viewport features (some (.member (some score))) := by
  obtain ⟨_, _, _, _, _, _, state⟩ := position
  match state with
  | .fixed viewport features (some (.member scoreMilli)) =>
    obtain rfl : scoreMilli = some score := scored
    exact ⟨viewport, features, rfl⟩

lemma numbered_of_state {viewport : Nat} {features scoreMilli} (index : Nat)
    (fixed : position.state = .fixed viewport features (some (.member scoreMilli))) :
    numbered position index = some ⟨viewport, position.rect.axis, position.rect.cross, index⟩ := by
  rw [numbered, fixed]

lemma fields_of_state {other : Position} (same : other.state = position.state) :
    other.fields = position.fields ∧ other.memberScore = position.memberScore := by
  rw [Position.fields, Position.fields, Position.memberScore, Position.memberScore, same]
  exact ⟨rfl, rfl⟩

lemma numbered_of_same {other} (index : Nat) (same : other.state = position.state)
    (rect : other.rect = position.rect) : numbered other index = numbered position index := by
  rw [numbered, numbered, same, rect]

theorem Reached.ranks_member {state} (reached : session.Reached state)
    {lists} (pinned : session.Pinned lists) (listed : position ∈ state.positions)
    (scored : position.memberScore = some score) :
    ∃ number seen, (firstSeenOrder state)[number]? = some seen ∧
      state.positions[seen.index]? = some position ∧
      (⟨session.memberId number, position.fields⟩, score) ∈ session.memberScores lists state := by
  obtain ⟨index, held⟩ := mem_iff_getElem?.mp listed
  obtain ⟨viewport, features, fixed⟩ := state_of_memberScore scored
  let seen : FirstSeen := ⟨viewport, position.rect.axis, position.rect.cross, index⟩
  have known : numbered position seen.index = some seen := numbered_of_state index fixed
  obtain ⟨number, found⟩ := mem_iff_getElem?.mp
    (mem_firstSeenOrder.mpr ⟨position, held, known⟩)
  exact ⟨number, seen, found, held, (reached.mem_memberScores pinned).mpr
    ⟨number, seen, position, found, held, known, scored, rfl⟩⟩

section Continuation

variable {state last : ScanState} {lists : ListIndex}

variable {seen : FirstSeen}

/-- A member that a later viewport fixes scores at most the bound over the whole domain. -/
theorem Continues.covered (continues : Continues session stop state last)
    (opened : Opened session stop) (reached : session.Reached last) (pinned : session.Pinned lists)
    {later} (held : last.positions[seen.index]? = some later)
    (found : numbered later seen.index = some seen) (after : state.viewports.length ≤ seen.viewport)
    (scored : later.memberScore = some score) :
    ∃ bound : UpperBound, stop.unseen = .ofUpperBound bound ∧ bound.Covers score := by
  obtain ⟨-, ⟨bound, answer, unseen⟩, -⟩ := earlyStopInputs_ok opened.inputs
  obtain ⟨viewport, features, fixed⟩ := state_of_memberScore scored
  have place : seen.viewport = viewport := by
    rw [numbered_of_state _ fixed] at found
    exact (congrArg FirstSeen.viewport (some.inj found)).symm
  have reading := continues.inDomain later (mem_of_getElem? held) _ _ _ fixed (place ▸ after)
  obtain ⟨identity, listed, fits⟩ := reading.fits opened ""
  obtain ⟨others, also, ⟨verdict, ranked, settled⟩, -, reports⟩ :=
    reached.1 later (mem_of_getElem? held) _ _ _ fixed
  obtain rfl := pinned.unique also
  have scores : Scores session.policy (unnamed features) (session.resolver lists) score := by
    have score : scoreOf session.policy (session.resolver lists) (unnamed features) = some score :=
      reports.1.symm
    have all := assess_reports settled
    rw [scoreOf, settled] at score
    cases ranked with
    | none => cases score
    | some entry =>
      obtain rfl := some.inj score
      exact all.2.2.2.1
  obtain ⟨other, same, covers⟩ := upperBound_covers_scores listed fits
    (describes_of_upperBound answer) pinned.valid pinned.bound pinned.lists scores
  obtain rfl : bound = other := ok.inj (answer.symm.trans same)
  exact ⟨bound, unseen, covers⟩

/-- The member that ranks first still ranks first when the list goes on. -/
theorem Continues.leads (continues : Continues session stop state last)
    (opened : Opened session stop) (before : session.Reached state) (reached : session.Reached last)
    (evolves : Evolves state.viewports.length state.positions last.positions)
    (pinned : session.Pinned lists) (holds : session.earlyStopHolds state = .ok true)
    (budget : (firstSeenOrder state).length ≤ scanProjectionMaxCandidates)
    (laterBudget : (firstSeenOrder last).length ≤ scanProjectionMaxCandidates) {number : Nat}
    (found : (firstSeenOrder state)[number]? = some seen)
    (held : state.positions[seen.index]? = some position)
    (known : numbered position seen.index = some seen) (scored : position.memberScore = some score)
    (leads : Leads session.policy (session.resolver lists) (session.memberScores lists state)
      (⟨session.memberId number, position.fields⟩, score)) :
    ∃ laterNumber, (firstSeenOrder last)[laterNumber]? = some seen ∧
      Leads session.policy (session.resolver lists) (session.memberScores lists last)
        (⟨session.memberId laterNumber, position.fields⟩, score) := by
  -- A member keeps its place in the first-seen order.
  obtain ⟨viewport, features, fixed⟩ := state_of_memberScore scored
  obtain ⟨own, there, sameState⟩ := continues.kept _ _ _ _ _ held fixed
  obtain ⟨also, here, rect⟩ := evolves.rects _ _ held
  obtain rfl : own = also := some.inj (there.symm.trans here)
  have knownLater := (numbered_of_same _ sameState rect).trans known
  obtain ⟨sameFields, sameScore⟩ := fields_of_state sameState
  obtain ⟨laterNumber, foundLater⟩ := mem_iff_getElem?.mp
    (mem_firstSeenOrder.mpr ⟨own, there, knownLater⟩)
  have below {order : List FirstSeen} {i : Nat} {entry : FirstSeen}
      (short : order.length ≤ scanProjectionMaxCandidates) (listed : order[i]? = some entry) :
      i < 64 := by
    have inside := (List.getElem?_eq_some_iff.mp listed).1
    unfold scanProjectionMaxCandidates at short
    omega
  refine ⟨laterNumber, foundLater, (reached.mem_memberScores pinned).mpr
    ⟨laterNumber, seen, own, foundLater, there, knownLater, sameScore.trans scored, ?_⟩, ?_⟩
  · rw [sameFields]
  rintro ⟨candidate, otherScore⟩ listed apart
  obtain ⟨otherLater, otherSeen, other, foundOther, heldOther, knownOther, scoredOther, rfl⟩ :=
    (reached.mem_memberScores pinned).mp listed
  have ids : compare (session.memberId laterNumber) (session.memberId otherLater) =
      seen.cmp otherSeen := by
    rw [compare_memberId (below laterBudget foundLater) (below laterBudget foundOther),
      cmp_eq_compare foundLater foundOther]
  by_cases earlier : otherSeen.viewport < state.viewports.length
  · -- The other member was there before, in the same order.
    obtain ⟨features, verdict, fixed, -, -⟩ := numbered_fixed knownOther
    obtain ⟨previous, heldPrevious, same, rect⟩ :=
      evolves.fixedBefore _ _ _ _ _ heldOther fixed earlier
    have samePrevious : previous.state = other.state := same.trans fixed.symm
    have knownPrevious := (numbered_of_same _ samePrevious rect).trans knownOther
    obtain ⟨fields, scores⟩ := fields_of_state samePrevious
    obtain ⟨otherNumber, foundPrevious⟩ := mem_iff_getElem?.mp
      (mem_firstSeenOrder.mpr ⟨previous, heldPrevious, knownPrevious⟩)
    have inside : ((⟨session.memberId otherNumber, previous.fields⟩ : Candidate), otherScore) ∈
        session.memberScores lists state :=
      (before.mem_memberScores pinned).mpr ⟨otherNumber, otherSeen, previous, foundPrevious,
        heldPrevious, knownPrevious, scores.trans scoredOther, rfl⟩
    have distinct : session.memberId otherNumber ≠ session.memberId number := by
      intro same
      have equal := memberId_inj (below budget foundPrevious) (below budget found) same
      rw [equal, found] at foundPrevious
      obtain rfl := some.inj foundPrevious
      have numbers : compare laterNumber otherLater = .eq := by
        rw [← cmp_eq_compare foundLater foundOther]
        exact ReflCmp.compare_self
      exact apart (by rw [LawfulEqCmp.eq_of_compare numbers])
    have order := leads.2 _ inside distinct
    rw [← order]
    refine rankOrder_renamed rfl fields.symm ?_
    rw [ids, compare_memberId (below budget found) (below budget foundPrevious),
      cmp_eq_compare found foundPrevious]
  -- The other member is new: it scores no more, and its number is larger.
  obtain ⟨bound, unseen, covers⟩ := continues.covered opened reached pinned heldOther
    knownOther (by omega) scoredOther
  obtain ⟨best, ⟨witness, listedBest, scoredBest⟩, test⟩ :=
    earlyStopHolds_true opened.declared holds
  have atLeast : best ≤ score := by
    obtain ⟨bestNumber, bestSeen, foundBest, heldBest, inside⟩ :=
      before.ranks_member pinned listedBest scoredBest
    by_cases same : session.memberId bestNumber = session.memberId number
    · have equal := memberId_inj (below budget foundBest) (below budget found) same
      rw [equal, found] at foundBest
      obtain rfl := some.inj foundBest
      obtain rfl : position = witness := some.inj (held.symm.trans heldBest)
      have equal := some.inj (scoredBest.symm.trans scored)
      omega
    · exact score_le_of_rankOrder (leads.2 _ inside same)
  have first : seen.cmp otherSeen = .lt := by
    obtain ⟨features, verdict, fixed, -, -⟩ := numbered_fixed known
    have own := before.2 position (mem_of_getElem? held) _ _ _ fixed
    exact cmp_of_viewport (by omega)
  rw [unseen] at test
  rcases Bound.le_of_covers covers (test.imp id And.left) with less | ⟨most, equal⟩
  · exact rankOrder_of_score (by omega)
  rcases Int.lt_or_eq_of_le (Int.le_trans most atLeast) with less | same
  · exact rankOrder_of_score less
  have firstKey : stop.firstKeyLowestId = true := by
    rcases test with below | both
    · rw [equal] at below
      simp [Bound.lt] at below
    · exact both.2
  exact rankOrder_of_id same.symm
    ((earlyStopInputs_ok opened.inputs).2.2 firstKey) (ids.trans first)

end Continuation

/-- Early stop does not change the decision: however the list goes on, the decision over all
members has the outcome of the decision over the members so far and chooses the same position, as
long as neither numbers more positions than the budget admits. -/
theorem early_stop_keeps_decision {state last : ScanState} (opened : Opened session stop)
    (started : session.Run .initial state) (holds : session.earlyStopHolds state = .ok true)
    (continues : Continues session stop state last)
    (budget : (firstSeenOrder state).length ≤ scanProjectionMaxCandidates)
    (laterBudget : (firstSeenOrder last).length ≤ scanProjectionMaxCandidates) :
    ∃ decision laterDecision index,
      session.decide state = .ok decision ∧ session.decide last = .ok laterDecision ∧
        laterDecision.outcome = decision.outcome ∧ decision.outcome = .selected 1 ∧
        session.chosenPosition state decision = some index ∧
        session.chosenPosition last laterDecision = some index ∧
        ∃ position later : Position, state.positions[index]? = some position ∧
          last.positions[index]? = some later ∧ later.rect = position.rect := by
  have before := (started.reached reached_initial).1
  obtain ⟨reached, evolves⟩ := continues.run.reached before
  obtain ⟨best, ⟨witness, listed, scoredBest⟩, -⟩ := earlyStopHolds_true opened.declared holds
  obtain ⟨viewport, features, fixed⟩ := state_of_memberScore scoredBest
  obtain ⟨lists, pinned, -, -, -⟩ := before.1 witness listed _ _ _ fixed
  -- The best member is among the members, so one of them ranks first.
  obtain ⟨⟨candidate, score⟩, leads⟩ : ∃ top, Leads session.policy (session.resolver lists)
      (session.memberScores lists state) top := by
    obtain ⟨_, _, -, -, inside⟩ := before.ranks_member pinned listed scoredBest
    exact exists_leads inside
  obtain ⟨number, seen, position, found, held, known, scored, rfl⟩ :=
    (before.mem_memberScores pinned).mp leads.1
  obtain ⟨laterNumber, foundLater, leadsLater⟩ := continues.leads opened before reached evolves
    pinned holds budget laterBudget found held known scored leads
  obtain ⟨decision, answer, outcome, selected⟩ :=
    before.decide_leads pinned opened.admitted budget leads
  obtain ⟨laterDecision, laterAnswer, laterOutcome, laterSelected⟩ :=
    reached.decide_leads pinned opened.admitted laterBudget leadsLater
  obtain ⟨later, heldLater, rect⟩ := evolves.rects _ _ held
  exact ⟨decision, laterDecision, seen.index, answer, laterAnswer, laterOutcome.trans outcome.symm,
    outcome, chosenPosition_eq budget found selected,
    chosenPosition_eq laterBudget foundLater laterSelected, position, later, held, heldLater, rect⟩

end ScanSession

namespace Sample

open Selection.Sample

def levelLayout : CandidateLayout where
  id := "row"
  features := [⟨"member", .identity, none, some ["member-a", "member-b"], false⟩,
    ⟨"level", .ocrInteger, some (1, 90), none, false⟩, ⟨"ready", .passed, none, none, false⟩]

/-- The largest score is that of `member-a` at level 1. -/
def levelStop : EarlyStop := ⟨levelDomains, ["member-a", "member-b"], .max 4999, true⟩

def levelSession : ScanSession where
  digests := digests
  identityFeature := "member"
  layout := levelLayout
  policy := { levelPolicy with
    appliesTo := { levelPolicy.appliesTo with candidateLayoutId := "row" } }
  tables := noTables
  facts := noFacts
  nowUnixMs := 0
  positionTolerancePx := 2
  maxAxisGapPx := 100
  bandAxis := 0
  bandAxisExtent := 720
  maxViewports := 8
  earlyStop := some levelStop

lemma level_opened : levelSession.Opened levelStop where
  admitted := ⟨rfl, rfl⟩
  declared := rfl
  inputs := by decide +kernel

/-- A reading of `member-a` at level 1, ready. -/
def reading : CandidateFeatureMap :=
  .ofList [("member", CandidateFeature.identity "member-a"), ("level", CandidateFeature.integer 1),
    ("ready", CandidateFeature.boolean true)]

/-- Cards in rows of eight, 80 pixels apart. -/
def cards (count : Nat) : List TrackedInstance :=
  (List.range count).map fun card => ⟨⟨80 * (card / 8), 60, 80 * (card % 8), 60⟩, true, reading⟩

/-- The positions a viewport gives the cards, numbered after those before it. -/
def positionsOf (viewport before count : Nat) (offset : Int) : List Position :=
  (List.range count).map fun card =>
    ⟨before + card, ⟨80 * (card / 8) + offset, 60, 80 * (card % 8), 60⟩, viewport, some viewport,
      some "member-a", none, .fixed viewport reading (some (.member (some 4999)))⟩

/-- One card in the first viewport. -/
def oneCard : ScanState := ⟨positionsOf 0 0 1 0, [⟨.start, 0, 1, 1, 0, false⟩], [(0, 720)]⟩

/-- More cards in the next viewport, 100 pixels on. -/
def moreCards (count : Nat) : ScanState where
  positions := positionsOf 0 0 1 0 ++ positionsOf 1 1 count 100
  viewports := [⟨.start, 0, 1, 1, 0, false⟩, ⟨.forward, 100, count, count, 0, false⟩]
  bands := [(0, 720), (100, 820)]

lemma one_card : levelSession.Run .initial oneCard :=
  .single (.start rfl (by decide +kernel : levelSession.observe .initial (cards 1) .start 0 false =
    .ok (.viewport oneCard)))

lemma one_card_stops : levelSession.earlyStopHolds oneCard = .ok true := by decide +kernel

lemma reading_inDomain : levelSession.InDomain levelStop reading where
  identity := ⟨"member-a", mem_cons_self, rfl⟩
  fields := by
    simp only [levelSession, levelPolicy, forall_mem_cons]
    refine ⟨?_, ?_, ?_, by simp⟩
    · exact ⟨.identity, .string "member-a", rfl, rfl, trivial⟩
    · exact ⟨.integer 1 90, .integer 1, rfl, rfl, by decide, by decide⟩
    · exact ⟨.boolean, .boolean true, rfl, rfl, trivial⟩

lemma mem_positionsOf {viewport before count : Nat} {offset : Int}
    (listed : position ∈ positionsOf viewport before count offset) :
    position.state = .fixed viewport reading (some (.member (some 4999))) := by
  obtain ⟨card, -, rfl⟩ := List.mem_map.mp listed
  rfl

/-- More readings of `member-a` at level 1 are a way the list may go on. -/
theorem more_cards {count : Nat} (seen : levelSession.observe oneCard (cards count) .forward 100
      false = .ok (.viewport (moreCards count))) :
    levelSession.Continues levelStop oneCard (moreCards count) where
  run := .single (.advance (by decide) seen)
  kept index position viewport features scoreMilli held _ := by
    have inside := (List.getElem?_eq_some_iff.mp held).1
    exact ⟨position, (getElem?_append_left inside).trans held, rfl⟩
  inDomain position listed viewport features scoreMilli fixed _ := by
    have read : ∃ own, position.state = .fixed own reading (some (.member (some 4999))) := by
      rcases mem_append.mp listed with first | later
      · exact ⟨0, mem_positionsOf first⟩
      · exact ⟨1, mem_positionsOf later⟩
    obtain ⟨_, same⟩ := read
    obtain ⟨-, rfl, -⟩ := PositionState.fixed.inj (same.symm.trans fixed)
    exact reading_inDomain

/-- The test holds after one card, and one more card leaves the decision as it is. -/
theorem early_stop_keeps_decision_two_cards :
    levelSession.earlyStopHolds oneCard = .ok true ∧
      ∃ decision laterDecision index,
        levelSession.decide oneCard = .ok decision ∧
          levelSession.decide (moreCards 1) = .ok laterDecision ∧
          laterDecision.outcome = decision.outcome ∧ decision.outcome = .selected 1 ∧
          levelSession.chosenPosition oneCard decision = some index ∧
          levelSession.chosenPosition (moreCards 1) laterDecision = some index ∧
          ∃ position later : Position, oneCard.positions[index]? = some position ∧
            (moreCards 1).positions[index]? = some later ∧ later.rect = position.rect :=
  ⟨one_card_stops, ScanSession.early_stop_keeps_decision level_opened one_card one_card_stops
    (more_cards (by decide +kernel)) (by decide +kernel) (by decide +kernel)⟩

/-- With 64 more cards the decision over all members fails, and the one over the first card does
not. -/
theorem early_stop_changes_decision :
    levelSession.Opened levelStop ∧ levelSession.Run .initial oneCard ∧
      levelSession.earlyStopHolds oneCard = .ok true ∧
      levelSession.Continues levelStop oneCard (moreCards 64) ∧
      (levelSession.decide oneCard).toOption.map (·.outcome) = some (.selected 1) ∧
      levelSession.decide (moreCards 64) = .error (.candidateBudgetExceeded 65) :=
  ⟨level_opened, one_card, one_card_stops, more_cards (by decide +kernel), by decide +kernel,
    by decide +kernel⟩

end Sample

end Scan
